import Mathlib.Tactic.Common
import JavaGenerics.Hierarchy

/-!
# How a checker answers

A question is a program, and its answer is found by running it.  This file says what each step of
such a program comes to, so that no later proof has to look at the tree behind it.

The rules are simplification lemmas: `answer_bind` **moves the answer past a sequence**, and what is
left are look-ups (`answer_edgesOf`) and results that need none (`answer_pure`, `answer_fail`,
`answer_lift`).
-/

namespace JavaGenerics

/-! ## Sequences of results -/

@[simp]
lemma ok_bind {ε α β : Type} (a : α) (f : α → Except ε β) :
    (Except.ok a >>= f) = f a := rfl

@[simp]
lemma error_bind {ε α β : Type} (e : ε) (f : α → Except ε β) :
    (Except.error e >>= f) = Except.error e := rfl

@[simp]
lemma pure_eq_ok {ε α : Type} (a : α) : (pure a : Except ε α) = .ok a := rfl

/-- A sequence succeeds if its parts do, one after the other. -/
lemma bind_eq_ok {ε α β : Type} {r : Except ε α} {f : α → Except ε β} {b : β} :
    (r >>= f) = .ok b ↔ ∃ a, r = .ok a ∧ f a = .ok b := by
  cases r with
  | error e => simp
  | ok a => simp

namespace Checker

variable {α β : Type} (checker : Checker)

/-! ## Steps of a program -/

@[simp]
lemma answer_pure (a : α) : checker.answer (pure a : Query α) = .ok a := rfl

@[simp]
lemma answer_fail (e : DeclError) : checker.answer (Query.fail e : Query α) = .error e := rfl

@[simp]
lemma answer_bind (q : Query α) (f : α → Query β) :
    checker.answer (q >>= f) = checker.answer q >>= fun a => checker.answer (f a) :=
  Query.run_bind _ q f

lemma answer_map (f : α → β) (q : Query α) :
    checker.answer (f <$> q) = (checker.answer q).map f := by
  rw [map_eq_pure_bind, answer_bind]
  cases checker.answer q <;> rfl

@[simp]
lemma answer_lift (r : Except DeclError α) : checker.answer (liftM r : Query α) = r :=
  Query.run_ofExcept _ r

@[simp]
lemma answer_edgesOf (id : ClassId) :
    checker.answer (Query.edgesOf id) = checker.edgesFromStore id :=
  Query.run_edgesOf _ id

@[simp]
lemma answer_ite (c : Prop) [Decidable c] (p q : Query α) :
    checker.answer (if c then p else q) = if c then checker.answer p else checker.answer q := by
  split <;> rfl

/-- A class of the store is looked up successfully. -/
lemma edgesFromStore_of_class {id : ClassId} {decl : ClassDecl}
    (h : checker.store.class? id = some decl) : checker.edgesFromStore id = .ok decl.edges := by
  simp [edgesFromStore, Store.knownClass, h, Except.map]

/-- What is looked up successfully is a class of the store. -/
lemma class_of_edgesFromStore {id : ClassId} {edges : Edges}
    (h : checker.edgesFromStore id = .ok edges) :
    ∃ decl, checker.store.class? id = some decl ∧ edges = decl.edges := by
  cases hclass : checker.store.class? id with
  | none => simp [edgesFromStore, Store.knownClass, hclass, Except.map] at h
  | some decl =>
      rw [checker.edgesFromStore_of_class hclass] at h
      exact ⟨decl, rfl, (Except.ok.inj h).symm⟩

end Checker

end JavaGenerics
