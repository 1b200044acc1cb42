import JavaGenerics.Bindings
import JavaGenerics.Hierarchy

/-!
# Applying classes to arguments

`Ty.applied` puts any class and any arguments together.  The functions here do so only if the result
makes sense to the store.

* `Store.applyClass` — applies a class, which has to take as many arguments.  An owner has to be a
  subtype of the class that encloses it; without one, that class is the owner.
* `Store.applyFromBindings` — takes the arguments from bindings of the class's parameters.
-/

namespace JavaGenerics

namespace Store

/-- Whether a type may own instances of a class that is nested in `enclosing`. -/
def mayOwn (store : Store) (owner : Ty) (enclosing : ClassId) : Except DeclError Bool :=
  match owner.rawClass? with
  | some id =>
    let checker : Checker := { store := store }
    checker.answer (checker.classConverts id enclosing)
  | none => .ok false

/-- The owner of an applied class: the one that is supplied, if it may be, or else the enclosing
class. -/
def ownerOf (store : Store) (decl : ClassDecl) (owner : Option Ty) :
    Except DeclError (Option Ty) :=
  match owner, decl.enclosing with
  | none, enclosing => .ok (enclosing.map .cls)
  | some owner, some enclosing => do
    if ← store.mayOwn owner enclosing then return some owner
    else throw (.foreignOwner (store.typeName? owner) decl.name)
  | some owner, none => throw (.foreignOwner (store.typeName? owner) decl.name)

/-- **Applies a class to arguments.** -/
def applyClass (store : Store) (owner : Option Ty) (raw : ClassId) (args : List Ty) :
    Except DeclError Ty := do
  let decl ← store.knownClass raw
  let owner ← store.ownerOf decl owner
  if decl.params.length ≠ args.length then
    throw (.wrongArity decl.name decl.params.length args.length)
  return .applied raw args owner

/-- What each of the variables is bound to. -/
def argumentsFrom (store : Store) (map : Bindings) : List TypeVarId → Except DeclError (List Ty)
  | [] => .ok []
  | var :: rest =>
    match map.get? var with
    | some arg => (argumentsFrom store map rest).map (arg :: ·)
    | none => .error (.unboundParameter (store.varName var))

/-- **Applies a class to what its parameters are bound to.** -/
def applyFromBindings (store : Store) (raw : ClassId) (map : Bindings) :
    Except DeclError Ty := do
  let decl ← store.knownClass raw
  let args ← store.argumentsFrom map decl.params
  store.applyClass none raw args

end Store

end JavaGenerics
