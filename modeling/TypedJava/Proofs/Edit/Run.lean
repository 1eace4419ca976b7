import TypedJava.Store.Edit

/-! # Running edits

What the building blocks of edits do to a store. An edit follows a relation between stores if every
run of it, successful or not, leads from a store to a related one. An edit that is put together
from edits that follow a reflexive and transitive relation follows it as well. -/

namespace TypedJava

namespace Edit

variable {α β : Type}

section Run

theorem run_pure (value : α) (store : Store) :
    (pure value : Edit α).run store = (.ok value, store) :=
  rfl

theorem run_throw (error : EditError) (store : Store) :
    (throw error : Edit α).run store = (.error error, store) :=
  rfl

theorem run_get (store : Store) : (get : Edit Store).run store = (.ok store, store) :=
  rfl

theorem run_bind (edit : Edit α) (next : α → Edit β) (store : Store) :
    (edit >>= next).run store =
      match edit.run store with
      | (.ok value, changed) => (next value).run changed
      | (.error error, changed) => (.error error, changed) := by
  cases result : edit.run store with
  | mk outcome changed =>
      have equality : edit store = (outcome, changed) := result
      have unfolded : (edit >>= next).run store =
          ExceptT.bindCont next (edit store).1 (edit store).2 := rfl
      rw [unfolded, equality]
      cases outcome <;> rfl

theorem run_bind_ok
    {edit : Edit α} {next : α → Edit β} {store changed : Store} {value : α}
    (run : edit.run store = (.ok value, changed)) :
    (edit >>= next).run store = (next value).run changed := by
  rw [run_bind, run]

theorem run_bind_error
    {edit : Edit α} {next : α → Edit β} {store changed : Store} {error : EditError}
    (run : edit.run store = (.error error, changed)) :
    (edit >>= next).run store = (.error error, changed) := by
  rw [run_bind, run]

theorem run_tryCatch (edit : Edit α) (handler : EditError → Edit α) (store : Store) :
    (tryCatch edit handler).run store =
      match edit.run store with
      | (.ok value, changed) => (.ok value, changed)
      | (.error error, changed) => (handler error).run changed := by
  cases result : edit.run store with
  | mk outcome changed =>
      have equality : edit store = (outcome, changed) := result
      change ExceptT.tryCatch edit handler store = _
      cases outcome with
      | ok value =>
          simp only [ExceptT.tryCatch, ExceptT.mk, bind, StateT.bind, equality]
          rfl
      | error error =>
          simp only [ExceptT.tryCatch, ExceptT.mk, bind, StateT.bind, equality]
          rfl

theorem run_ask (question : Store → α) (store : Store) :
    (ask question).run store = (.ok (question store), store) :=
  rfl

theorem run_askOrFail (question : Store → Except EditError α) (store : Store) :
    (askOrFail question).run store = (question store, store) := by
  rw [askOrFail, run_bind, run_get]
  cases answer : question store <;> simp only [answer] <;> rfl

theorem run_mkNode (payload : Payload) (store : Store) :
    (mkNode payload).run store = (.ok store.size, (store.push (.ofPayload payload)).2) :=
  rfl

/-- What an attachment does: nothing for an absent child, an error where a rule stands against it,
and else the change of the store. -/
theorem run_attachAt (parent : NodeRef) (role : Role) (position : Nat) (child : NodeRef)
    (store : Store) :
    (attachAt parent role position child).run store =
      match child, parent, store.attachError? parent role child with
      | none, _, _ => (.ok (), store)
      | some _, _, some error => (.error error, store)
      | some child, some parent, none => (.ok (), store.attach ⟨parent, role⟩ position child)
      | some _, none, none => (.ok (), store) := by
  rw [attachAt, run_bind, run_get]
  cases child with
  | none =>
      rfl
  | some child =>
      cases parent with
      | none =>
          cases problem : store.attachError? none role (some child) <;> simp only [problem] <;> rfl
      | some parent =>
          cases problem : store.attachError? (some parent) role (some child) <;>
            simp only [problem] <;> rfl

theorem run_detach (node : NodeRef) (store : Store) :
    (detach node).run store =
      match node, store.location? node with
      | some id, some location => (.ok (), store.detach location id)
      | _, _ => (.ok (), store) := by
  rw [detach, run_bind, run_get]
  cases node with
  | none =>
      rfl
  | some id =>
      cases located : store.location? (some id) <;> simp only [located] <;> rfl

theorem run_attachAt_ok
    {parent child : NodeId} {role : Role} {store : Store}
    (allowed : store.attachError? (some parent) role (some child) = none) (position : Nat) :
    (attachAt (some parent) role position (some child)).run store =
      (.ok (), store.attach ⟨parent, role⟩ position child) := by
  rw [run_attachAt, allowed]

theorem run_attachLast_ok
    {parent child : NodeId} {role : Role} {store : Store}
    (allowed : store.attachError? (some parent) role (some child) = none) :
    (attachLast (some parent) role (some child)).run store =
      (.ok (), store.attach ⟨parent, role⟩ (store.childrenIn (some parent) role).length child) := by
  rw [attachLast, run_bind_ok (run_ask _ store), run_attachAt_ok allowed]

/-- A replacement none of whose steps fails. -/
theorem run_replaceBy_ok
    {node replacement : NodeRef} {factory : NodeRef → Edit NodeRef} {location : Store.Location}
    {store detached changed attached : Store} (located : store.location? node = some location)
    (runDetach : (detach node).run store = (.ok (), detached))
    (runFactory : (factory node).run detached = (.ok replacement, changed))
    (runAttach : (attachAt (some location.place.parent) location.place.role location.position
      replacement).run changed = (.ok (), attached)) :
    (replaceBy node factory).run store = (.ok replacement, attached) := by
  have runAsk : (ask (·.location? node)).run store = (.ok (some location), store) := by
    rw [run_ask, located]
  have runCaught (handler : EditError → Edit NodeRef) :
      (tryCatch (factory node) handler).run detached = (.ok replacement, changed) := by
    rw [run_tryCatch, runFactory]
  rw [replaceBy, run_bind_ok runAsk]
  simp only
  rw [run_bind_ok runDetach, run_bind_ok (runCaught _), run_bind_ok runAttach]
  rfl

end Run

/-! ## Reaching a condition -/

/-- The edit succeeds with a value and a store that meet the condition, or it fails and may do
so. -/
def Reaches (mayFail : Prop) (edit : Edit α) (store : Store) (condition : α → Store → Prop) :
    Prop :=
  match edit.run store with
  | (.ok value, changed) => condition value changed
  | (.error _, _) => mayFail

namespace Reaches

variable {mayFail : Prop} {edit : Edit α} {store : Store} {condition : α → Store → Prop}

theorem of_run
    {value : α} {changed : Store} (run : edit.run store = (.ok value, changed))
    (holds : condition value changed) :
    Reaches mayFail edit store condition := by
  rw [Reaches, run]
  exact holds

theorem imp
    (reaches : Reaches mayFail edit store condition) {weaker : α → Store → Prop}
    (implies : ∀ value changed, condition value changed → weaker value changed) :
    Reaches mayFail edit store weaker := by
  rw [Reaches] at reaches ⊢
  split
  · rename_i value changed same
    rw [same] at reaches
    exact implies value changed reaches
  · rename_i error changed same
    rw [same] at reaches
    exact reaches

theorem bind
    {next : α → Edit β} {final : β → Store → Prop} (first : Reaches mayFail edit store condition)
    (second : ∀ value changed, condition value changed →
      Reaches mayFail (next value) changed final) :
    Reaches mayFail (edit >>= next) store final := by
  rw [Reaches] at first
  rw [Reaches, run_bind]
  cases result : edit.run store with
  | mk outcome changed =>
      rw [result] at first
      cases outcome with
      | ok value =>
          exact second value changed first
      | error error =>
          exact first

/-- A first step that succeeds. -/
theorem bind_of_run
    {next : α → Edit β} {final : β → Store → Prop} {value : α} {changed : Store}
    (run : edit.run store = (.ok value, changed))
    (second : Reaches mayFail (next value) changed final) :
    Reaches mayFail (edit >>= next) store final := by
  rw [Reaches, run_bind_ok run]
  exact second

/-- An edit that must not fail succeeds. -/
theorem exists_run (reaches : Reaches False edit store condition) :
    ∃ value changed, edit.run store = (.ok value, changed) ∧ condition value changed := by
  rw [Reaches] at reaches
  cases result : edit.run store with
  | mk outcome changed =>
      rw [result] at reaches
      cases outcome with
      | ok value =>
          exact ⟨value, changed, rfl, reaches⟩
      | error error =>
          exact reaches.elim

theorem of_ok
    (reaches : Reaches mayFail edit store condition) {value : α} {changed : Store}
    (run : edit.run store = (.ok value, changed)) :
    condition value changed := by
  rw [Reaches, run] at reaches
  exact reaches

end Reaches

/-! ## Following a relation -/

/-- Every run of the edit leads to a related store. -/
def Follows (relation : Store → Store → Prop) (edit : Edit α) : Prop :=
  ∀ store, relation store (edit.run store).2

namespace Follows

variable {relation : Store → Store → Prop} {edit : Edit α} {next : α → Edit β}

theorem pure (refl : ∀ store, relation store store) (value : α) :
    Follows relation (Pure.pure value : Edit α) :=
  fun store => refl store

theorem throw (refl : ∀ store, relation store store) (error : EditError) :
    Follows relation (MonadExcept.throw error : Edit α) :=
  fun store => refl store

theorem get (refl : ∀ store, relation store store) :
    Follows relation (MonadState.get : Edit Store) :=
  fun store => refl store

theorem bind
    (trans : ∀ first second third, relation first second → relation second third →
      relation first third)
    (first : Follows relation edit) (second : ∀ value, Follows relation (next value)) :
    Follows relation (edit >>= next) := by
  intro store
  have step := first store
  rw [run_bind]
  cases result : edit.run store with
  | mk outcome changed =>
      rw [result] at step
      cases outcome with
      | ok value =>
          exact trans _ _ _ step (second value changed)
      | error error =>
          exact step

theorem tryCatch
    (trans : ∀ first second third, relation first second → relation second third →
      relation first third)
    {handler : EditError → Edit α}
    (first : Follows relation edit) (second : ∀ error, Follows relation (handler error)) :
    Follows relation (MonadExcept.tryCatch edit handler) := by
  intro store
  have step := first store
  have equality := run_tryCatch edit handler store
  rw [show (MonadExcept.tryCatch edit handler).run store = _ from equality]
  cases result : edit.run store with
  | mk outcome changed =>
      rw [result] at step
      cases outcome with
      | ok value =>
          exact step
      | error error =>
          exact trans _ _ _ step (second error changed)

theorem ask (refl : ∀ store, relation store store) (question : Store → α) :
    Follows relation (Edit.ask question) :=
  fun store => refl store

theorem askOrFail
    (refl : ∀ store, relation store store) (question : Store → Except EditError α) :
    Follows relation (Edit.askOrFail question) := by
  intro store
  rw [run_askOrFail]
  exact refl store

/-- A loop follows a relation that its body follows. -/
theorem forIn
    (refl : ∀ store, relation store store)
    (trans : ∀ first second third, relation first second → relation second third →
      relation first third)
    {body : α → Edit (ForInStep PUnit)} (bodyFollows : ∀ item, Follows relation (body item))
    (items : List α) :
    Follows relation (ForIn.forIn items PUnit.unit fun item _ => body item) := by
  induction items with
  | nil =>
      exact pure refl _
  | cons item items inductionHypothesis =>
      rw [List.forIn_cons]
      refine bind trans (bodyFollows item) fun step => ?_
      cases step with
      | done result =>
          exact pure refl _
      | yield result =>
          exact inductionHypothesis

end Follows

end Edit

end TypedJava
