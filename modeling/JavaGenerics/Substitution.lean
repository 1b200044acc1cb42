import JavaGenerics.Bindings
import JavaGenerics.Checker

/-!
# Substitution

Bindings may map a variable to another variable, which may be bound in turn.  Replacing a variable
therefore means following such a chain to its end, and two things can go wrong on the way: the chain
may come back to a variable it has passed, or be longer than the limit allows.

* `Checker.follow` — follows a chain.  `ChainEnd` tells the three ways in which it can end.
* `Checker.substitute` — replaces every variable of a type by the end of its chain.  **What is put
  in is not substituted into again.**
* `Checker.instantiate` — replaces a type that is a variable, and leaves every other type alone.
-/

namespace JavaGenerics

/-- How a chain of variables ends. -/
inductive ChainEnd where
  /-- The variable at its start is not bound at all. -/
  | unbound
  /-- It ends at a type that is no variable. -/
  | ended (ty : Ty)
  /-- It ends at another variable, which is not bound. -/
  | loose (last : TypeVarId)
deriving Inhabited

namespace Checker

/-! ## Chains of variables -/

/-- Follows a chain from `current`, having passed `visited` since `start`, for at most `hops` more
variables. -/
def followFrom (checker : Checker) (map : Bindings) (start : TypeVarId) :
    (hops : Nat) → (visited : List TypeVarId) → (current : TypeVarId) → Except DeclError ChainEnd
  | hops, visited, current =>
    match map.get? current with
    | none => .ok (if current = start then .unbound else .loose current)
    | some (.var next) =>
      match hops with
      | 0 => .error
          (.longVariableChain (checker.store.varName start) checker.limits.maxVariableChain)
      | hops + 1 =>
        if visited.contains next then .error (.cyclicVariable (checker.store.varName start))
        else followFrom checker map start hops (next :: visited) next
    | some ty => .ok (.ended ty)

/-- Follows the chain that starts at `var`. -/
def follow (checker : Checker) (var : TypeVarId) (map : Bindings) : Except DeclError ChainEnd :=
  checker.followFrom map var checker.limits.maxVariableChain [var] var

/-- The type at the end of a chain of variables, if there is one. -/
def endOfChain (checker : Checker) (var : TypeVarId) (map : Bindings) :
    Except DeclError (Option Ty) := do
  match ← checker.follow var map with
  | .ended ty => return some ty
  | .unbound | .loose _ => return none

/-- What a variable is replaced by: the end of its chain, be it a variable or not. -/
def replaceVar (checker : Checker) (var : TypeVarId) (map : Bindings) : Except DeclError Ty := do
  match ← checker.follow var map with
  | .ended ty => return ty
  | .loose last => return .var last
  | .unbound => return .var var

/-! ## Types -/

mutual

/-- Replaces the variables of a type, going down at most `fuel` levels. -/
def substWithin (checker : Checker) (map : Bindings) : (fuel : Nat) → Ty → Except DeclError Ty
  | 0, _ => .error checker.tooDeep
  | _ + 1, .cls id => .ok (.cls id)
  | _ + 1, .var var => checker.replaceVar var map
  | fuel + 1, .applied raw args owner => do
    let args ← substAllWithin checker map fuel args
    let owner ← substOwnerWithin checker map fuel owner
    return .applied raw args owner
  | fuel + 1, .wildcard upper lower => do
    let upper ← substAllWithin checker map fuel upper
    let lower ← substAllWithin checker map fuel lower
    return .wildcard upper lower
  | fuel + 1, .array component => do
    return .array (← substWithin checker map fuel component)

def substAllWithin (checker : Checker) (map : Bindings) :
    (fuel : Nat) → List Ty → Except DeclError (List Ty)
  | _, [] => .ok []
  | fuel, ty :: rest => do
    let ty ← substWithin checker map fuel ty
    let rest ← substAllWithin checker map fuel rest
    return ty :: rest

def substOwnerWithin (checker : Checker) (map : Bindings) :
    (fuel : Nat) → Option Ty → Except DeclError (Option Ty)
  | _, none => .ok none
  | fuel, some owner => do
    return some (← substWithin checker map fuel owner)

end

/-- Replaces every variable of a type by what it is bound to.  Unbound variables stay. -/
def substitute (checker : Checker) (ty : Ty) (map : Bindings) : Except DeclError Ty :=
  checker.substWithin map checker.fuel ty

/-- Replaces a type that is a variable, where there are bindings to consult. -/
def instantiate (checker : Checker) (context : Option Bindings) : Ty → Except DeclError Ty
  | .var var =>
    match context with
    | some map => checker.replaceVar var map
    | none => .ok (.var var)
  | ty => .ok ty

/-- `instantiate` for a bound that may be absent. -/
def instantiate? (checker : Checker) (context : Option Bindings) :
    Option Ty → Except DeclError (Option Ty)
  | some ty => (checker.instantiate context ty).map some
  | none => .ok none

end Checker

end JavaGenerics
