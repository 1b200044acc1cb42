import JavaGenerics.Display
import JavaGenerics.EdgeCache

/-!
# Checkers

Hierarchies may be cyclic and types may be nested without end, so whoever answers questions about
them works under limits.

* `Limits` — how far a walk may go.
* `Checker` — a store and the limits to apply.  All questions are asked of a checker.
* `Checker.answer` — answers from the store alone; `Checker.answerWith` — answers through a cache,
  unless the limits say that caches are not to be consulted.
-/

namespace JavaGenerics

/-- Limits and switches that a checker applies. -/
structure Limits where
  /-- How many variables bound to one another in a row are followed. -/
  maxVariableChain : Nat := 64
  /-- How deeply walks and structural recursion may be nested. -/
  maxDepth : Nat := 256
  /-- Whether a cache is consulted where there is one. -/
  useCache : Bool := true
deriving DecidableEq, Repr, Inhabited

/-- Answers questions about the declarations of a store. -/
structure Checker where
  store : Store
  limits : Limits := {}

namespace Checker

/-! ## Answering -/

/-- The walkable part of a declaration, straight from the store. -/
def edgesFromStore (checker : Checker) (id : ClassId) : Except DeclError Edges :=
  (checker.store.knownClass id).map ClassDecl.edges

/-- Answers a question from the store alone. -/
def answer {α : Type} (checker : Checker) (question : Query α) : Except DeclError α :=
  question.run checker.edgesFromStore

/-- Answers a question with a cache at hand. -/
def answerWith {α : Type} (checker : Checker) (cache : EdgeCache) (question : Query α) :
    Except DeclError α × EdgeCache :=
  if checker.limits.useCache then EdgeCache.answer checker.edgesFromStore question cache
  else (checker.answer question, cache)

/-- How deep a walk may still go when it starts. -/
def fuel (checker : Checker) : Nat :=
  checker.limits.maxDepth + 1

/-- A walk went too deep. -/
def tooDeep (checker : Checker) : DeclError :=
  .nestedTooDeep checker.limits.maxDepth

/-- A one-line description. -/
def describe (checker : Checker) (cached : Bool) : String :=
  "Resolver \x7b cached: " ++ toString cached ++
    ", options: ResolverOptions \x7b max_variable_chain: " ++
    toString checker.limits.maxVariableChain ++ ", max_depth: " ++
    toString checker.limits.maxDepth ++ ", use_cache: " ++ toString checker.limits.useCache ++
    " \x7d, .. \x7d"

/-! ## Bounds -/

def isPrimitive (checker : Checker) (id : ClassId) : Bool :=
  checker.store.wellKnown.isPrimitive id

/-- Upper bounds of a type variable: the declared ones, or `Object` where none is declared. -/
def varBounds (checker : Checker) (var : TypeVarId) : Except DeclError (List Ty) := do
  let param ← checker.store.knownParam var
  return checker.store.boundsOrObject param.bounds

/-- Upper bounds of a wildcard: the declared ones, or `Object` where none is declared. -/
def upperBounds (checker : Checker) (upper : List Ty) : List Ty :=
  checker.store.boundsOrObject upper

/-- Lower bounds of a wildcard.  Without a declared one there is a single absent bound, which
accepts nothing but an absent source. -/
def lowerBounds (lower : List Ty) : List (Option Ty) :=
  if lower.isEmpty then [none] else lower.map some

end Checker

end JavaGenerics
