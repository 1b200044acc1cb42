import JavaGenerics.Declaration
import JavaGenerics.DeclError

/-!
# Questions about a hierarchy

Whoever walks a hierarchy needs one thing from the outside: the walkable part of a class's
declaration, one class at a time.  Whether that comes from a store, from a cache in front of a
store, or from somewhere else is not the walker's business, and its answers should not depend on it.

So a walk is written as a *question*: a tree whose inner nodes ask for one class and go on with what
they are told.

* `Query` — the questions.  They form a monad (`Query.instLawfulMonad`), so walks are written as
  programs.
* `Query.run` — answers a question from a source of declarations.  `run_bind` says that **answering
  goes through a program step by step**.
-/

namespace JavaGenerics

/-- A question that is answered with an `α` after looking up finitely many classes. -/
inductive Query (α : Type) where
  /-- The answer is known. -/
  | done (answer : α)
  /-- There is no answer. -/
  | fail (error : DeclError)
  /-- The answer depends on the walkable part of a class's declaration. -/
  | lookup (id : ClassId) (next : Edges → Query α)

namespace Query

variable {α β : Type}

/-- Goes on with the answer of a question. -/
def bind : Query α → (α → Query β) → Query β
  | .done answer, next => next answer
  | .fail error, _ => .fail error
  | .lookup id rest, next => .lookup id fun edges => (rest edges).bind next

instance : Monad Query where
  pure := .done
  bind := Query.bind

/-- A result that needs no look-up. -/
def ofExcept : Except DeclError α → Query α
  | .ok answer => .done answer
  | .error error => .fail error

instance : MonadLift (Except DeclError) Query := ⟨ofExcept⟩

/-- The walkable part of a class's declaration. -/
def edgesOf (id : ClassId) : Query Edges :=
  .lookup id .done

/-! ## Answering -/

/-- Answers a question from a source of declarations. -/
def run (source : ClassId → Except DeclError Edges) : Query α → Except DeclError α
  | .done answer => .ok answer
  | .fail error => .error error
  | .lookup id next =>
    match source id with
    | .ok edges => (next edges).run source
    | .error error => .error error

/-! ## Laws -/

theorem bind_done (q : Query α) : q.bind .done = q := by
  induction q with
  | done _ => rfl
  | fail _ => rfl
  | lookup id next ih => simp [bind, ih]

theorem bind_assoc {γ : Type} (q : Query α) (f : α → Query β) (g : β → Query γ) :
    (q.bind f).bind g = q.bind fun a => (f a).bind g := by
  induction q with
  | done _ => rfl
  | fail _ => rfl
  | lookup id next ih => simp [bind, ih]

instance instLawfulMonad : LawfulMonad Query :=
  LawfulMonad.mk' Query (fun q => bind_done q) (fun _ _ => rfl) (fun q f g => bind_assoc q f g)

@[simp]
theorem run_pure (source : ClassId → Except DeclError Edges) (answer : α) :
    (pure answer : Query α).run source = .ok answer := rfl

@[simp]
theorem run_fail (source : ClassId → Except DeclError Edges) (error : DeclError) :
    (Query.fail error : Query α).run source = .error error := rfl

@[simp]
theorem run_ofExcept (source : ClassId → Except DeclError Edges) (result : Except DeclError α) :
    (ofExcept result).run source = result := by
  cases result <;> rfl

@[simp]
theorem run_edgesOf (source : ClassId → Except DeclError Edges) (id : ClassId) :
    (edgesOf id).run source = source id := by
  simp only [edgesOf, run]
  cases source id <;> rfl

/-- **Answering goes through a program step by step.** -/
@[simp]
theorem run_bind (source : ClassId → Except DeclError Edges) (q : Query α) (f : α → Query β) :
    (q >>= f).run source = q.run source >>= fun a => (f a).run source := by
  show (q.bind f).run source = _
  induction q with
  | done _ => rfl
  | fail _ => rfl
  | lookup id next ih =>
    simp only [bind, run]
    cases source id with
    | ok edges => exact ih edges
    | error _ => rfl

end Query

end JavaGenerics
