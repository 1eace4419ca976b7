import TypedJava.Proofs.Edit.Run
import TypedJava.Proofs.Store.Copy
import TypedJava.Store.Build

/-! # Structural programs

A structural program changes a store through the operations on nodes alone. It follows every
reflexive and transitive relation between stores that the elementary operations follow. So, whatever
references it uses, and whether or not its steps succeed, it takes a well-formed store to a
well-formed one. -/

namespace TypedJava

namespace Edit

variable {α β : Type}

/-- The edit keeps well-formed stores well-formed, also when it stops with an error. -/
def KeepsWellFormed (edit : Edit α) : Prop :=
  edit.Follows fun before after => before.WellFormed → after.WellFormed

namespace KeepsWellFormed

theorem mkNode (payload : Payload) : (Edit.mkNode payload).KeepsWellFormed :=
  fun _ wellFormed => wellFormed.push_ofPayload payload

theorem attachAt (parent : NodeRef) (role : Role) (position : Nat) (child : NodeRef) :
    (Edit.attachAt parent role position child).KeepsWellFormed := by
  intro store wellFormed
  rw [run_attachAt]
  cases child with
  | none =>
      exact wellFormed
  | some child =>
      cases allowed : store.attachError? parent role (some child) with
      | some error =>
          cases parent <;> exact wellFormed
      | none =>
          cases parent with
          | none =>
              exact wellFormed
          | some parent =>
              exact wellFormed.attach
                (wellFormed.attachable_of_attachError? ⟨parent, role⟩ allowed) position

theorem detach (node : NodeRef) : (Edit.detach node).KeepsWellFormed := by
  intro store wellFormed
  rw [run_detach]
  cases node with
  | none =>
      exact wellFormed
  | some id =>
      cases located : store.location? (some id) with
      | none =>
          exact wellFormed
      | some location =>
          exact wellFormed.detach located

theorem setMember (node : NodeRef) (member : Member) :
    (Edit.setMember node member).KeepsWellFormed := by
  cases node with
  | none =>
      exact fun _ wellFormed => wellFormed
  | some id =>
      exact fun _ wellFormed =>
        wellFormed.annotate id fun annotations => { annotations with member := some member }

theorem setType (node : NodeRef) (type : Ty) : (Edit.setType node type).KeepsWellFormed := by
  cases node with
  | none =>
      exact fun _ wellFormed => wellFormed
  | some id =>
      exact fun _ wellFormed =>
        wellFormed.annotate id fun annotations => { annotations with type := some type }

theorem copyTree (node : NodeRef) : (Edit.copyTree node).KeepsWellFormed :=
  fun _ wellFormed => (wellFormed.copyTree node).1

end KeepsWellFormed

/-! ## Relations that programs follow -/

/-- A reflexive and transitive relation between stores that every elementary operation follows. -/
structure IsFollowed (relation : Store → Store → Prop) : Prop where
  refl : ∀ store, relation store store
  trans : ∀ first second third, relation first second → relation second third →
    relation first third
  mkNode : ∀ payload, (mkNode payload).Follows relation
  attachAt : ∀ parent role position child, (attachAt parent role position child).Follows relation
  detach : ∀ node, (detach node).Follows relation
  setMember : ∀ node member, (setMember node member).Follows relation
  setType : ∀ node type, (setType node type).Follows relation
  copyTree : ∀ node, (copyTree node).Follows relation

theorem isFollowed_wellFormed :
    IsFollowed fun before after => before.WellFormed → after.WellFormed where
  refl _ wellFormed := wellFormed
  trans _ _ _ first second wellFormed := second (first wellFormed)
  mkNode := KeepsWellFormed.mkNode
  attachAt := KeepsWellFormed.attachAt
  detach := KeepsWellFormed.detach
  setMember := KeepsWellFormed.setMember
  setType := KeepsWellFormed.setType
  copyTree := KeepsWellFormed.copyTree

namespace IsFollowed

variable {relation : Store → Store → Prop} (followed : IsFollowed relation)

include followed

theorem pure (value : α) : (Pure.pure value : Edit α).Follows relation :=
  Follows.pure followed.refl value

theorem throw (error : EditError) : (MonadExcept.throw error : Edit α).Follows relation :=
  Follows.throw followed.refl error

theorem ask (question : Store → α) : (Edit.ask question).Follows relation :=
  Follows.ask followed.refl question

theorem askOrFail (question : Store → Except EditError α) :
    (Edit.askOrFail question).Follows relation :=
  Follows.askOrFail followed.refl question

theorem bind
    {edit : Edit α} {next : α → Edit β} (first : edit.Follows relation)
    (second : ∀ value, (next value).Follows relation) :
    (edit >>= next).Follows relation :=
  Follows.bind followed.trans first second

theorem tryCatch
    {edit : Edit α} {handler : EditError → Edit α} (first : edit.Follows relation)
    (second : ∀ error, (handler error).Follows relation) :
    (MonadExcept.tryCatch edit handler).Follows relation :=
  Follows.tryCatch followed.trans first second

theorem forIn
    {body : α → Edit (ForInStep PUnit)} (bodyFollows : ∀ item, (body item).Follows relation)
    (items : List α) :
    (ForIn.forIn items PUnit.unit fun item _ => body item).Follows relation :=
  Follows.forIn followed.refl followed.trans bodyFollows items

/-! ## The composed operations -/

theorem attachLast (parent : NodeRef) (role : Role) (child : NodeRef) :
    (Edit.attachLast parent role child).Follows relation :=
  followed.bind (followed.ask _) fun siblings =>
    followed.attachAt parent role siblings.length child

theorem fillRole (parent : NodeRef) (role : Role) (child : NodeRef) :
    (Edit.fillRole parent role child).Follows relation := by
  refine followed.bind (followed.askOrFail _) fun occupants =>
    followed.bind (followed.forIn (fun occupant => ?_) occupants) fun _ =>
      followed.attachLast parent role child
  exact followed.bind (followed.detach (some occupant)) fun _ => followed.pure _

theorem replaceBy
    {factory : NodeRef → Edit NodeRef} (factoryFollows : ∀ node, (factory node).Follows relation)
    (node : NodeRef) :
    (Edit.replaceBy node factory).Follows relation := by
  refine followed.bind (followed.ask _) fun location? => ?_
  cases location? with
  | none =>
      exact followed.throw _
  | some location =>
      refine followed.bind (followed.detach node) fun _ =>
        followed.bind (followed.tryCatch (factoryFollows node) fun error => ?_) fun replacement =>
          followed.bind (followed.attachAt _ _ _ replacement) fun _ => followed.pure replacement
      refine followed.bind (followed.ask _) fun parent => ?_
      cases parent with
      | none =>
          exact followed.bind (followed.attachAt _ _ _ node) fun _ => followed.throw error
      | some parent =>
          exact followed.bind (followed.pure PUnit.unit) fun _ => followed.throw error

theorem replace (node replacement : NodeRef) :
    (Edit.replace node replacement).Follows relation :=
  followed.replaceBy (fun _ => followed.pure replacement) node

theorem mkNodeWith (payload : Payload) (children : List (Role × NodeRef)) :
    (Edit.mkNodeWith payload children).Follows relation := by
  refine followed.bind (followed.mkNode payload) fun node =>
    followed.bind (followed.forIn (fun entry => ?_) children) fun _ => followed.pure node
  obtain ⟨role, child⟩ := entry
  exact followed.bind (followed.attachLast (some node) role child) fun _ => followed.pure _

theorem attachTokens (node : NodeId) (roles : List Role) :
    (Edit.attachTokens node roles).Follows relation := by
  refine followed.bind (followed.forIn (fun role => ?_) roles) fun _ => followed.pure ()
  cases role.punctuation? with
  | none =>
      exact followed.pure _
  | some text =>
      exact followed.bind (followed.mkNode (.token text)) fun token =>
        followed.bind (followed.attachLast (some node) role (some token)) fun _ => followed.pure _

theorem attachAll (node : NodeId) (role : Role) (children : List NodeRef) :
    (Edit.attachAll node role children).Follows relation := by
  refine followed.bind (followed.forIn (fun child => ?_) children) fun _ => followed.pure ()
  exact followed.bind (followed.attachLast (some node) role child) fun _ => followed.pure _

/-! ## The builders -/

theorem mkPlaceholder (pattern : Pattern) : (Edit.mkPlaceholder pattern).Follows relation :=
  followed.bind (followed.ask _) fun number => followed.mkNode (.placeholder number pattern)

theorem mkAccess (target : NodeRef) (name : String) (typeArguments : List NodeRef) :
    (Edit.mkAccess target name typeArguments).Follows relation :=
  followed.bind (followed.mkNodeWith _ _) fun node =>
    followed.bind (followed.attachTokens node _) fun _ =>
      followed.bind (followed.attachAll node _ typeArguments) fun _ => followed.pure node

theorem mkInvocation (target : NodeRef) (arguments : List NodeRef) :
    (Edit.mkInvocation target arguments).Follows relation :=
  followed.bind (followed.mkNodeWith _ _) fun node =>
    followed.bind (followed.attachTokens node _) fun _ =>
      followed.bind (followed.attachAll node _ arguments) fun _ => followed.pure node

theorem mkMethodCall (target : NodeRef) (name : String) (typeArguments arguments : List NodeRef) :
    (Edit.mkMethodCall target name typeArguments arguments).Follows relation :=
  followed.bind (followed.mkAccess target name typeArguments) fun member =>
    followed.mkInvocation (some member) arguments

theorem mkCreation (type : NodeRef) (arguments : List NodeRef) :
    (Edit.mkCreation type arguments).Follows relation :=
  followed.bind (followed.mkNodeWith _ _) fun node =>
    followed.bind (followed.attachTokens node _) fun _ =>
      followed.bind (followed.attachAll node _ arguments) fun _ => followed.pure node

theorem mkCast (type expression : NodeRef) : (Edit.mkCast type expression).Follows relation :=
  followed.bind (followed.mkNodeWith _ _) fun node =>
    followed.bind (followed.attachTokens node _) fun _ => followed.pure node

theorem mkNamedType (name : String) (typeArguments : List NodeRef) :
    (Edit.mkNamedType name typeArguments).Follows relation :=
  followed.bind (followed.mkNode _) fun node =>
    followed.bind (followed.attachAll node _ typeArguments) fun _ => followed.pure node

theorem mkBlock (statements : List NodeRef) : (Edit.mkBlock statements).Follows relation :=
  followed.bind (followed.mkNode _) fun node =>
    followed.bind (followed.attachAll node _ statements) fun _ => followed.pure node

end IsFollowed

/-- A program over the operations on nodes: the builders, attaching, detaching and replacing,
copying and annotating. It may look at the store, stop with an error, catch an error and go on, and
let what it does depend on what it did before. -/
inductive Structural : {α : Type} → Edit α → Prop
  | pure {α : Type} (value : α) : Structural (Pure.pure value)
  | throw {α : Type} (error : EditError) : Structural (MonadExcept.throw error : Edit α)
  | bind {α β : Type} {edit : Edit α} {next : α → Edit β} :
      Structural edit → (∀ value, Structural (next value)) → Structural (edit >>= next)
  | tryCatch {α : Type} {edit : Edit α} {handler : EditError → Edit α} :
      Structural edit → (∀ error, Structural (handler error)) →
      Structural (MonadExcept.tryCatch edit handler)
  | get : Structural (MonadState.get : Edit Store)
  | mkNode (payload : Payload) : Structural (mkNode payload)
  | mkNodeWith (payload : Payload) (children : List (Role × NodeRef)) :
      Structural (mkNodeWith payload children)
  | mkLiteral (value : Literal) : Structural (mkLiteral value)
  | mkNull : Structural mkNull
  | mkToken (text : String) : Structural (mkToken text)
  | mkPlaceholder (pattern : Pattern) : Structural (mkPlaceholder pattern)
  | mkAccess (target : NodeRef) (name : String) (typeArguments : List NodeRef) :
      Structural (mkAccess target name typeArguments)
  | mkInvocation (target : NodeRef) (arguments : List NodeRef) :
      Structural (mkInvocation target arguments)
  | mkMethodCall (target : NodeRef) (name : String) (typeArguments arguments : List NodeRef) :
      Structural (mkMethodCall target name typeArguments arguments)
  | mkCreation (type : NodeRef) (arguments : List NodeRef) :
      Structural (mkCreation type arguments)
  | mkCast (type expression : NodeRef) : Structural (mkCast type expression)
  | mkAssignment (operator : AssignmentOperator) (left right : NodeRef) :
      Structural (mkAssignment operator left right)
  | mkConditional (condition whenTrue whenFalse : NodeRef) :
      Structural (mkConditional condition whenTrue whenFalse)
  | mkBinary (operator : BinaryOperator) (left right : NodeRef) :
      Structural (mkBinary operator left right)
  | mkUnary (operator : UnaryOperator) (expression : NodeRef) :
      Structural (mkUnary operator expression)
  | mkNamedType (name : String) (typeArguments : List NodeRef) :
      Structural (mkNamedType name typeArguments)
  | mkWildcard (form : WildcardForm) (bound : NodeRef) : Structural (mkWildcard form bound)
  | mkArrayType (element : NodeRef) (rank : Nat) : Structural (mkArrayType element rank)
  | mkBlock (statements : List NodeRef) : Structural (mkBlock statements)
  | mkStatement (expression : NodeRef) : Structural (mkStatement expression)
  | mkReturn (expression : NodeRef) : Structural (mkReturn expression)
  | mkVariable (type : NodeRef) (name : String) (initializer : NodeRef) :
      Structural (mkVariable type name initializer)
  | attachAt (parent : NodeRef) (role : Role) (position : Nat) (child : NodeRef) :
      Structural (attachAt parent role position child)
  | attachLast (parent : NodeRef) (role : Role) (child : NodeRef) :
      Structural (attachLast parent role child)
  | fillRole (parent : NodeRef) (role : Role) (child : NodeRef) :
      Structural (fillRole parent role child)
  | detach (node : NodeRef) : Structural (detach node)
  | replace (node replacement : NodeRef) : Structural (replace node replacement)
  | replaceBy {factory : NodeRef → Edit NodeRef} (node : NodeRef) :
      (∀ operand, Structural (factory operand)) → Structural (replaceBy node factory)
  | copyTree (node : NodeRef) : Structural (copyTree node)
  | setMember (node : NodeRef) (member : Member) : Structural (setMember node member)
  | setType (node : NodeRef) (type : Ty) : Structural (setType node type)

/-- A program over the operations on nodes follows what the elementary operations follow. -/
theorem Structural.follows
    {edit : Edit α} (structural : edit.Structural) {relation : Store → Store → Prop}
    (followed : IsFollowed relation) :
    edit.Follows relation := by
  induction structural with
  | pure value => exact followed.pure value
  | throw error => exact followed.throw error
  | bind _ _ first second => exact followed.bind first second
  | tryCatch _ _ first second => exact followed.tryCatch first second
  | get => exact .get followed.refl
  | mkNode payload => exact followed.mkNode payload
  | mkNodeWith payload children => exact followed.mkNodeWith payload children
  | mkLiteral value => exact followed.mkNode _
  | mkNull => exact followed.mkNode _
  | mkToken text => exact followed.mkNode _
  | mkPlaceholder pattern => exact followed.mkPlaceholder pattern
  | mkAccess target name typeArguments => exact followed.mkAccess target name typeArguments
  | mkInvocation target arguments => exact followed.mkInvocation target arguments
  | mkMethodCall target name typeArguments arguments =>
      exact followed.mkMethodCall target name typeArguments arguments
  | mkCreation type arguments => exact followed.mkCreation type arguments
  | mkCast type expression => exact followed.mkCast type expression
  | mkAssignment => exact followed.mkNodeWith _ _
  | mkConditional => exact followed.mkNodeWith _ _
  | mkBinary => exact followed.mkNodeWith _ _
  | mkUnary => exact followed.mkNodeWith _ _
  | mkNamedType name typeArguments => exact followed.mkNamedType name typeArguments
  | mkWildcard => exact followed.mkNodeWith _ _
  | mkArrayType => exact followed.mkNodeWith _ _
  | mkBlock statements => exact followed.mkBlock statements
  | mkStatement => exact followed.mkNodeWith _ _
  | mkReturn => exact followed.mkNodeWith _ _
  | mkVariable => exact followed.mkNodeWith _ _
  | attachAt parent role position child => exact followed.attachAt parent role position child
  | attachLast parent role child => exact followed.attachLast parent role child
  | fillRole parent role child => exact followed.fillRole parent role child
  | detach node => exact followed.detach node
  | replace node replacement => exact followed.replace node replacement
  | replaceBy node _ factoryFollows => exact followed.replaceBy factoryFollows node
  | copyTree node => exact followed.copyTree node
  | setMember node member => exact followed.setMember node member
  | setType node type => exact followed.setType node type

/-- Every operation on nodes keeps a store well-formed, and so does every program over them. -/
theorem Structural.keepsWellFormed {edit : Edit α} (structural : edit.Structural) :
    edit.KeepsWellFormed :=
  structural.follows isFollowed_wellFormed

/-- Every store that a structural program reaches from the empty one is well-formed, whether or not
the program succeeds. -/
theorem wellFormed_of_structural {edit : Edit α} (structural : edit.Structural) :
    (edit.run Store.empty).2.WellFormed :=
  structural.keepsWellFormed _ Store.wellFormed_empty

/-- Builds `(int) -x` and tries to put the cast below its own operand. -/
def closeCycle : Edit Unit := do
  let name ← mkNode (.identifier "x")
  let operand ← mkUnary .minus (some name)
  let type ← mkNamedType "int" []
  let cast ← mkCast (some type) (some operand)
  attachLast (some operand) .expression (some cast)

theorem structural_closeCycle : closeCycle.Structural :=
  .bind (.mkNode _) fun _ => .bind (.mkUnary _ _) fun _ => .bind (.mkNamedType _ _) fun _ =>
    .bind (.mkCast _ _) fun _ => .attachLast _ _ _

/-- A program that tries to close a cycle, goes on after the error and then replaces the operand of
the cast by its negation. -/
theorem wellFormed_after_failed_cycle :
    (closeCycle.run Store.empty).1 = .error (.cyclic (some 3)) ∧
      ((do
          tryCatch closeCycle fun _ => pure ()
          replaceBy (some 1) fun node => return some (← mkUnary .minus node) :
            Edit NodeRef).run Store.empty).2.WellFormed := by
  refine ⟨rfl, wellFormed_of_structural ?_⟩
  refine .bind ?_ fun _ => .replaceBy _ fun node => ?_
  · exact .tryCatch structural_closeCycle fun _ => .pure _
  · exact .bind (.mkUnary _ _) fun negation => .pure _

end Edit

end TypedJava
