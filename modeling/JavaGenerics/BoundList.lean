import JavaGenerics.Subtyping

/-!
# Normal bound lists

A list of upper bounds may say the same thing twice: `Number & Object` is just `Number`.

* `distinct` — the first occurrences of a list.
* `Checker.normalizeBounds` — drops every bound that another bound of the list implies.  **Of bounds
  that imply one another the earliest survives, and survivors keep their order.**
-/

namespace JavaGenerics

/-- The first occurrences, given the types that have been met before. -/
def distinctAfter (seen : List Ty) : List Ty → List Ty
  | [] => []
  | ty :: rest =>
    if seen.contains ty then distinctAfter seen rest else ty :: distinctAfter (seen ++ [ty]) rest

/-- The first occurrence of every type in the list, in order. -/
def distinct (types : List Ty) : List Ty :=
  distinctAfter [] types

namespace Checker

/-- Whether an earlier bound implies `bound`. -/
def impliedByEarlier (checker : Checker) (bound : Ty) : List Ty → Query Bool
  | [] => pure false
  | other :: rest => do
    if ← checker.assignable (some other) bound none then pure true
    else impliedByEarlier checker bound rest

/-- Whether a later bound implies `bound` without being implied by it in turn. -/
def impliedByLater (checker : Checker) (bound : Ty) : List Ty → Query Bool
  | [] => pure false
  | other :: rest => do
    if ← checker.assignable (some other) bound none then
      if ← checker.assignable (some bound) other none then impliedByLater checker bound rest
      else pure true
    else impliedByLater checker bound rest

/-- The bounds among the second list that no other bound of either list makes redundant. -/
def survivors (checker : Checker) (earlier : List Ty) : List Ty → Query (List Ty)
  | [] => pure []
  | bound :: later => do
    let implied ← do
      if ← checker.impliedByEarlier bound earlier then pure true
      else checker.impliedByLater bound later
    let rest ← survivors checker (earlier ++ [bound]) later
    pure (if implied then rest else bound :: rest)

/-- **The bounds that no other bound of the list implies.**  Should none be left, the first one
stands for all. -/
def normalizeBounds (checker : Checker) (bounds : List Ty) : Query (List Ty) :=
  match distinct bounds with
  | [] => Query.fail .noBounds
  | [only] => pure [only]
  | first :: rest => do
    match ← checker.survivors [] (first :: rest) with
    | [] => pure [first]
    | kept => pure kept

end Checker

end JavaGenerics
