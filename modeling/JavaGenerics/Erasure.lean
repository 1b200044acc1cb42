import JavaGenerics.Subtyping

/-!
# Erasure

At run time a type is no more than a class or an array of classes.

* `Checker.erase` — what is left of a type.  A variable that a class declares is looked up in the
  type it is seen from.
* `Checker.mentionsVariables` — whether a type depends on type variables at all.
-/

namespace JavaGenerics

namespace Checker

/-- One level of `erase`. -/
def eraseWithin (checker : Checker) (viewer : Option Ty) : (fuel : Nat) → Ty → Query (Option Ty)
  | 0, _ => Query.fail checker.tooDeep
  | _ + 1, .cls id => pure (some (.cls id))
  | _ + 1, .applied raw _ _ => pure (some (.cls raw))
  | _ + 1, .wildcard _ _ => pure none
  | fuel + 1, .array component => do
    return (← eraseWithin checker viewer fuel component).map .array
  | fuel + 1, .var var =>
    match viewer with
    | none => pure none
    | some viewed => do
      let param ← checker.store.knownParam var
      match param.declarer with
      | .ofMethod _ _ => pure none
      | .ofClass declaring =>
        match ← checker.walkWithin fuel viewed declaring .empty with
        | none => pure none
        | some map =>
          match map.get? var with
          | some arg => eraseWithin checker viewer fuel arg
          | none => pure none

/-- **The erasure of a type.**  Variables are looked up in the type they are seen from; wildcards,
method variables and variables that stay unbound have no erasure. -/
def erase (checker : Checker) (ty : Ty) (viewer : Option Ty) : Query (Option Ty) :=
  checker.eraseWithin viewer checker.fuel ty

mutual

/-- Whether a type mentions a type variable.  A generic class without arguments does, for it ranges
over its own parameters. -/
def mentionsVariables : Ty → Query Bool
  | .var _ => pure true
  | .cls id => do return !(← Query.edgesOf id).params.isEmpty
  | .applied _ args _ => anyMentionsVariables args
  | .wildcard upper lower => do
    if ← anyMentionsVariables upper then pure true
    else anyMentionsVariables lower
  | .array component => mentionsVariables component

def anyMentionsVariables : List Ty → Query Bool
  | [] => pure false
  | ty :: rest => do
    if ← mentionsVariables ty then pure true
    else anyMentionsVariables rest

end

end Checker

end JavaGenerics
