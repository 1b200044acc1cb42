import Mathlib.Order.Defs.Unbundled
import JavaGenerics.Loader
import JavaGenerics.Proofs.RegularStore

/-!
# What loading does to a store on the way

A computation that loads declarations changes the store as it goes, and what it has changed before
it fails stays changed.  So whatever is to hold of stores afterwards has to hold at every exit.

* `Loading.Leaves` — what a computation leaves behind on one store: a store that is related to it,
  whether the computation succeeds or fails, and on success a fitting result.  **The relation is
  composed along a sequence** (`Leaves.bind`), so it is proved step by step.
* `Store.getElem?_pushClass`, `Store.getElem?_setClass` — what is found in a store after a class has
  been added or replaced.
* `Loader.loadClass_eq`, `Loader.loadMethod_eq` — loading, written as one sequence of steps each.
-/

namespace JavaGenerics

variable {α β : Type}

namespace Loading

/-! ## Running a computation -/

/-- The result of a computation and the store it leaves behind. -/
def runOn (program : Loading α) (store : Store) : Except SignatureError α × Store :=
  program.run.run store

lemma runOn_bind (program : Loading α) (next : α → Loading β) (store : Store) :
    runOn (program >>= next) store =
      match runOn program store with
      | (.ok a, after) => runOn (next a) after
      | (.error e, after) => (.error e, after) := by
  show (match runOn program store with
    | (result, after) => (ExceptT.bindCont next result).run after) = _
  rcases runOn program store with ⟨_ | a, after⟩ <;> rfl

/-- A sequence succeeds if its parts do, one after the other. -/
lemma runOn_bind_eq_ok {program : Loading α} {next : α → Loading β} {store after : Store} {b : β} :
    runOn (program >>= next) store = (.ok b, after) ↔
      ∃ a middle, runOn program store = (.ok a, middle) ∧ runOn (next a) middle = (.ok b, after) := by
  rw [runOn_bind]
  rcases runOn program store with ⟨_ | a, middle⟩ <;> simp

/-- A sequence fails where its first part fails or, once that is done, the second one. -/
lemma runOn_bind_eq_error {program : Loading α} {next : α → Loading β} {store after : Store}
    {e : SignatureError} :
    runOn (program >>= next) store = (.error e, after) ↔
      runOn program store = (.error e, after) ∨
        ∃ a middle, runOn program store = (.ok a, middle) ∧
          runOn (next a) middle = (.error e, after) := by
  rw [runOn_bind]
  rcases runOn program store with ⟨_ | a, middle⟩ <;> simp

/-- Run on the store, the computation leaves a store behind that is related to it, and what it
returns fits there. -/
def Leaves (rel : Store → Store → Prop) (program : Loading α) (store : Store)
    (post : α → Store → Prop) : Prop :=
  rel store (runOn program store).2 ∧
    ∀ a, (runOn program store).1 = .ok a → post a (runOn program store).2

namespace Leaves

variable {rel : Store → Store → Prop} {store : Store} {program : Loading α}
  {post post' : α → Store → Prop}

lemma imp (h : Leaves rel program store post)
    (hpost : ∀ a after, rel store after → post a after → post' a after) :
    Leaves rel program store post' :=
  ⟨h.1, fun a ha => hpost a _ h.1 (h.2 a ha)⟩

lemma modifyGet {f : Store → α × Store} (hrel : rel store (f store).2)
    (hpost : post (f store).1 (f store).2) :
    Leaves rel (modifyGet f : Loading α) store post :=
  ⟨hrel, by rintro _ ⟨⟩; exact hpost⟩

lemma modify {f : Store → Store} {post : Unit → Store → Prop} (hrel : rel store (f store))
    (hpost : post () (f store)) : Leaves rel (modify f : Loading Unit) store post :=
  ⟨hrel, by rintro _ ⟨⟩; exact hpost⟩

variable [IsPreorder Store rel]

lemma pure {a : α} (h : post a store) : Leaves rel (pure a : Loading α) store post :=
  ⟨refl_of rel store, by rintro _ ⟨⟩; exact h⟩

lemma throw (e : SignatureError) : Leaves rel (throw e : Loading α) store post :=
  ⟨refl_of rel store, by rintro _ ⟨⟩⟩

lemma get : Leaves rel (get : Loading Store) store fun found after =>
    found = store ∧ after = store :=
  ⟨refl_of rel store, by rintro _ ⟨⟩; exact ⟨rfl, rfl⟩⟩

/-- **A sequence leaves behind what its parts leave behind, one after the other.** -/
lemma bind {next : α → Loading β} {post' : β → Store → Prop}
    (h : Leaves rel program store post)
    (hnext : ∀ a after, rel store after → post a after → Leaves rel (next a) after post') :
    Leaves rel (program >>= next) store post' := by
  obtain ⟨hrel, hpost⟩ := h
  unfold Leaves
  rw [runOn_bind]
  rcases hrun : runOn program store with ⟨e | a, after⟩
  · rw [hrun] at hrel
    exact ⟨hrel, by rintro _ ⟨⟩⟩
  · rw [hrun] at hrel hpost
    obtain ⟨hrel', hpost'⟩ := hnext a after hrel (hpost a rfl)
    exact ⟨trans_of rel hrel hrel', hpost'⟩

/-- To read the store first changes nothing. -/
lemma get_bind {next : Store → Loading α} (h : Leaves rel (next store) store post) :
    Leaves rel (MonadState.get >>= next) store post :=
  Leaves.get.bind fun found after _ ⟨hfound, hafter⟩ => by
    rw [hfound, hafter]
    exact h

lemma map {f : α → β} {post' : β → Store → Prop} (h : Leaves rel program store post)
    (hpost : ∀ a after, rel store after → post a after → post' (f a) after) :
    Leaves rel (f <$> program) store post' := by
  rw [map_eq_pure_bind]
  exact h.bind fun a after hrel ha => .pure (hpost a after hrel ha)

lemma change {f : Store → Except DeclError Store} {post : Unit → Store → Prop}
    (h : ∀ after, f store = .ok after → rel store after ∧ post () after) :
    Leaves rel (Loading.change f) store post := by
  refine .get_bind ?_
  cases hf : f store with
  | ok after =>
      obtain ⟨hrel, hpost⟩ := h after hf
      exact ⟨hrel, by rintro _ ⟨⟩; exact hpost⟩
  | error e => exact .throw _

end Leaves

end Loading

namespace Store

/-! ## Adding and replacing a class -/

/-- What is found after a class has been put at the end. -/
lemma getElem?_pushClass (store : Store) (decl : ClassDecl) (id : ClassId) :
    (store.classes.push decl)[id.index]? =
      if id.index = store.classes.size then some decl else store.class? id := by
  rw [Array.getElem?_push]
  rfl

/-- What is found after a class has been replaced. -/
lemma getElem?_setClass (store : Store) (id : ClassId) (decl : ClassDecl) (other : ClassId) :
    (store.classes.setIfInBounds id.index decl)[other.index]? =
      (store.class? other).map fun old => if id = other then decl else old := by
  rw [Array.getElem?_setIfInBounds, class?]
  by_cases hother : id = other
  · subst hother
    by_cases hlt : id.index < store.classes.size <;> simp [hlt]
  · rw [if_neg (hother ∘ ClassId.index_injective.eq_iff.mp)]
    simp [hother]

end Store

/-! ## The steps of loading -/

lemma rawClass?_nestIn (outer : Option Ty) (id : ClassId) (args : List Ty) :
    (nestIn outer id args).rawClass? = some id := by
  unfold nestIn
  cases outer <;> dsimp only <;> split <;> rfl

namespace Loader

/-- The class that encloses the one with this name. -/
def internOuter (name : String) : Loading (Option ClassId) :=
  match outerName? name with
  | some outer => some <$> Loading.internClass outer
  | none => pure none

/-- What is in sight where a declaration starts: the variables of the enclosing class, if there is
one. -/
def scopeAround (store : Store) : Option ClassId → Scope
  | some outer => Scope.ofClass store outer
  | none => {}

/-- What a declaration of the given kind has for a superclass. -/
def denoteSuperclass (scope : Scope) (kind : DeclKind) (sig : ClassTypeSig) :
    Loading (Option Ty) :=
  if kind = .interface then pure none else some <$> denoteClass scope sig

/-- Loading a class, as one sequence of steps. -/
lemma loadClass_eq (name : String) (kind : DeclKind) (sig : ClassSig) :
    loadClass name kind sig = do
      let id ← Loading.internClass name
      let enclosing ← internOuter name
      let store ← get
      let declared ← declareParams sig.params (.ofClass id) (scopeAround store enclosing)
      let superclass ← denoteSuperclass declared.2 kind sig.superclass
      let interfaces ← denoteClasses declared.2 sig.interfaces
      Loading.change (·.redeclareClass id
        { name, kind, params := declared.1, superclass, interfaces, enclosing,
          fields := ((store.class? id).map ClassDecl.fields).getD [] })
      return id := by
  unfold loadClass internOuter scopeAround denoteSuperclass
  cases kind <;> cases outerName? name <;> rfl

/-- To ask whether a class is known changes nothing. -/
lemma leaves_requireClass {rel : Store → Store → Prop} [IsPreorder Store rel] (id : ClassId)
    (store : Store) : Loading.Leaves rel (requireClass id) store fun _ after => after = store := by
  unfold requireClass
  refine .get_bind ?_
  split
  · exact .pure rfl
  · exact .throw _

/-- What the result of a method denotes. -/
def denoteResult (scope : Scope) : Option TypeSig → Loading (Option Ty)
  | some sig => some <$> denote scope sig
  | none => pure none

/-- Finding the type of a method, as one sequence of steps. -/
lemma loadMethod_eq (owner : ClassId) (name : String) (sig : MethodSig) :
    loadMethod owner name sig = do
      requireClass owner
      let store ← get
      let declared ← declareParams sig.params (.ofMethod owner name) (Scope.ofClass store owner)
      let parameters ← denoteAll declared.2 sig.parameters
      let result ← denoteResult declared.2 sig.result
      let throws ← denoteAll declared.2 sig.throws
      return { params := declared.1, parameters, result, throws } := by
  unfold loadMethod denoteResult
  cases sig.result <;> rfl

end Loader

end JavaGenerics
