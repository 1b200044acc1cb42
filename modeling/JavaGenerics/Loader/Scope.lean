import JavaGenerics.Store

/-!
# Scopes

A signature mentions type variables by name, and what a name means depends on where the signature
stands: a class sees its own parameters and those of the classes around it.

* `Scope` — the type variables in sight, by name.
* `Store.enclosingChain` — a class and the classes around it, from the inside out.  Enclosing links
  may run in a circle or lead to an unknown class, and the chain ends before either.  A walk that
  may follow too few links (`Store.enclosingChainFrom`) does not answer.
* `Scope.ofClass` — the variables in sight inside a class.  **Inner declarations hide outer ones.**
-/

namespace JavaGenerics

/-- The type variables in sight, by name. -/
structure Scope where
  vars : Index String TypeVarId := {}
deriving Inhabited

/-- A class and the classes around it, from the inside out, as far as they are known and have not
been `passed`.  There is no answer where the links run out that may be followed. -/
def Store.enclosingChainFrom (store : Store) :
    (links : Nat) → (passed : List ClassId) → ClassId → Option (List ClassId)
  | 0, _, _ => none
  | links + 1, passed, id =>
    match store.class? id with
    | none => some []
    | some decl =>
      if passed.contains id then some []
      else
        match decl.enclosing with
        | some outer => (store.enclosingChainFrom links (id :: passed) outer).map (id :: ·)
        | none => some [id]

/-- A class and the classes around it, from the inside out.  Without repetition these are no more
than all classes of the store, so the links do not run out. -/
def Store.enclosingChain (store : Store) (id : ClassId) : List ClassId :=
  (store.enclosingChainFrom (store.size + 1) [] id).getD []

namespace Scope

/-- The variable a name stands for. -/
def get? (scope : Scope) (name : String) : Option TypeVarId :=
  scope.vars.get? name

/-- Lets a name stand for a variable, and hides what it stood for before. -/
def insert (scope : Scope) (name : String) (var : TypeVarId) : Scope :=
  ⟨scope.vars.insert name var⟩

/-- Brings the known ones among some variables into sight, the later ones on top. -/
def insertKnown (store : Store) (scope : Scope) : List TypeVarId → Scope
  | [] => scope
  | var :: rest =>
    match store.param? var with
    | some param => insertKnown store (scope.insert param.name var) rest
    | none => insertKnown store scope rest

/-- Brings the parameters of a class into sight. -/
def insertParams (store : Store) (scope : Scope) (id : ClassId) : Scope :=
  match store.class? id with
  | some decl => insertKnown store scope decl.params
  | none => scope

/-- The variables in sight inside a class: its own, and those of the classes around it. -/
def ofClass (store : Store) (id : ClassId) : Scope :=
  (store.enclosingChain id).reverse.foldl (insertParams store) {}

end Scope

end JavaGenerics
