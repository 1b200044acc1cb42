import JavaGenerics.Subtyping

/-!
# Type arguments, forward and back

A field of a generic class is declared in terms of the class's parameters, but is used through a
type that supplies arguments for them.  The questions here carry types from the one point of view to
the other.

* `Checker.seenFrom` — an expression of a declaring class, as seen from a context.
* `Checker.fieldSeenFrom` — the type of a declared field, as seen from a context.
* `Checker.inferArguments` — the way back: what the parameters of a class have to stand for if it
  is to be a subtype of a given applied class.
* `Checker.satisfiesBounds` — whether bindings respect the bounds of the variables they bind, gone
  through in any order.
-/

namespace JavaGenerics

namespace Checker

/-! ## From the declaration to the context -/

/-- **The type that `expression`, written in terms of the parameters of `declaring`, is seen as from
`context`.**  Unrelated contexts see it as it is written. -/
def seenFrom (checker : Checker) (context : Ty) (declaring : ClassId) (expression : Ty) :
    Query Ty := do
  match ← checker.viewAs context declaring .empty with
  | some map => checker.substitute expression map
  | none => pure expression

/-- The type of the field `name` that `owner` declares, as seen from `context`. -/
def fieldSeenFrom (checker : Checker) (context : Ty) (owner : ClassId) (name : String) :
    Query (Option Ty) := do
  let decl ← checker.store.knownClass owner
  match decl.field? name with
  | some field => some <$> checker.seenFrom context owner field.ty
  | none => pure none

/-! ## From the supertype back to the declaration -/

/-- For each argument that is a parameter of the class itself, copies what the corresponding
declared parameter is bound to. -/
def copyArguments (own : List TypeVarId) : List TypeVarId → List Ty → Bindings → Bindings
  | declared :: params, arg :: args, map =>
    let map :=
      match arg with
      | .var var =>
        if own.contains var then
          match map.get? declared with
          | some bound => map.bind var bound
          | none => map
        else map
      | _ => map
    copyArguments own params args map
  | _, _, map => map

/-- Carries the bindings of an applied class, and before that of the types it is nested in, over to
the parameters of the class that mentions it as a supertype. -/
def carryArguments (id : ClassId) : Ty → Bindings → Query Bindings
  | .applied raw args owner, map => do
    let map ←
      match owner with
      | some outer => carryArguments id outer map
      | none => pure map
    let own ← Query.edgesOf id
    let declared ← Query.edgesOf raw
    pure (copyArguments own.params declared.params args map)
  | _, map => pure map

/-- One level of `inferArguments`. -/
def inferWithin (checker : Checker) (superRaw : ClassId) (superType : Ty) :
    (fuel : Nat) → ClassId → Query (Option Bindings)
  | 0, _ => Query.fail checker.tooDeep
  | fuel + 1, id => do
    if ← checker.classConverts id superRaw then
      if id = superRaw then checker.walkWithin fuel superType superRaw .empty
      else
        match ← checker.parentToward id superRaw with
        | none => pure none
        | some (.applied raw args owner) =>
          match ← inferWithin checker superRaw superType fuel raw with
          | none => pure none
          | some map => some <$> carryArguments id (.applied raw args owner) map
        | some (.cls parent) => inferWithin checker superRaw superType fuel parent
        | some other =>
          Query.fail
            (.badSupertype (checker.store.qualifiedName? id) (checker.store.typeName? other))
    else pure none

/-- **What the parameters of a class stand for if it is to be a subtype of `superType`.**  There is
no answer unless `superType` is an applied class and the two are related. -/
def inferArguments (checker : Checker) (id : ClassId) (superType : Ty) :
    Query (Option Bindings) :=
  match superType with
  | .applied raw _ _ => checker.inferWithin raw superType checker.fuel id
  | _ => pure none

/-! ## Bounds -/

/-- Whether a type is assignable to every one of the bounds, with the bindings put in for bounds
that are variables. -/
def withinBounds (checker : Checker) (map : Bindings) (ty : Ty) : List Ty → Query Bool
  | [] => pure true
  | bound :: rest => do
    let bound ← checker.instantiate (some map) bound
    if ← checker.assignable (some ty) bound (some map) then withinBounds checker map ty rest
    else pure false

/-- Whether every listed entry respects the bounds of its variable. -/
def entriesSatisfy (checker : Checker) (map : Bindings) : List (TypeVarId × Ty) → Query Bool
  | [] => pure true
  | (var, ty) :: rest => do
    let bounds ← checker.varBounds var
    if ← checker.withinBounds map ty bounds then entriesSatisfy checker map rest
    else pure false

/-- Whether every binding respects the bounds of its variable, when the bindings are gone through in
the given order.  Nobody fixes the order of a finite map, so whatever is to hold of this question
has to hold for all orders. -/
def satisfiesBounds (checker : Checker) (map : Bindings) (order : map.Order := map.byId) :
    Query Bool :=
  checker.entriesSatisfy map order.entries

end Checker

end JavaGenerics
