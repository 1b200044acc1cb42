import JavaGenerics.Primitive

/-!
# Types

A *type* here is what may stand in a generic declaration: a class, a class applied to arguments, a
type variable, a wildcard or an array.  Types refer to declarations only through the ids that a
store hands out, so two types can be compared without looking at any declaration.

* `ClassId`, `TypeVarId` — identities of nominal types and of type variables.
* `Ty` — the types.
* `Ty.same` — equality of types, registered as `==`.  **It is structural except for owners**: an
  applied class is the same type whatever qualified type it is nested in, as long as its class and
  its arguments are.  Lean's `=` on `Ty` is finer and sees owners too.
* `Ty.isGenericArray` — whether the innermost part of an array type depends on generics.
-/

namespace JavaGenerics

/-- Identity of a nominal type: a class, an interface or a primitive.  Indices have no bound here.
With 32 bits for them a store does the same as long as it declares at most `2 ^ 32` classes. -/
structure ClassId where
  index : Nat
deriving DecidableEq, Repr, Inhabited

/-- Identity of a type variable.  Variables of one name that are declared by different elements
have different identities.  As with classes, indices have no bound, and 32 bits are enough for them
as long as there are at most `2 ^ 32` variables. -/
structure TypeVarId where
  index : Nat
deriving DecidableEq, Repr, Inhabited

/-- How an id is written when no declaration is known for it. -/
def ClassId.label (id : ClassId) : String :=
  s!"ClassId({id.index})"

/-- How an id is written when no declaration is known for it. -/
def TypeVarId.label (id : TypeVarId) : String :=
  s!"TypeVarId({id.index})"

/-- A type as it occurs in a generic declaration. -/
inductive Ty where
  /-- A class, interface or primitive, independent of any instantiation. -/
  | cls (id : ClassId)
  /-- A class applied to arguments, possibly nested in a qualified owner type. -/
  | applied (raw : ClassId) (args : List Ty) (owner : Option Ty)
  /-- A type variable. -/
  | var (id : TypeVarId)
  /-- A wildcard with its declared bounds.  No upper bound stands for the implicit one. -/
  | wildcard (upper lower : List Ty)
  /-- An array with the given component. -/
  | array (component : Ty)
deriving Inhabited, Repr

namespace Ty

/-! ## Equality -/

mutual

/-- Equality of types that disregards the owners of applied classes. -/
def same : Ty → Ty → Bool
  | .cls a, .cls b => a == b
  | .applied a as _, .applied b bs _ => a == b && sameAll as bs
  | .var v, .var w => v == w
  | .wildcard us ls, .wildcard us' ls' => sameAll us us' && sameAll ls ls'
  | .array c, .array d => same c d
  | _, _ => false

/-- Pointwise `same` on lists of equal length. -/
def sameAll : List Ty → List Ty → Bool
  | [], [] => true
  | a :: as, b :: bs => same a b && sameAll as bs
  | _, _ => false

end

instance : BEq Ty := ⟨same⟩

/-! ## Shapes -/

/-- The class behind a class or an applied class. -/
def rawClass? : Ty → Option ClassId
  | .cls id => some id
  | .applied raw _ _ => some raw
  | _ => none

/-- The variable, for a type that is one. -/
def var? : Ty → Option TypeVarId
  | .var id => some id
  | _ => none

/-- The arguments of an applied class.  Every other type has none. -/
def args : Ty → List Ty
  | .applied _ args _ => args
  | _ => []

/-- The component of an array. -/
def component? : Ty → Option Ty
  | .array component => some component
  | _ => none

def isWildcard : Ty → Bool
  | .wildcard _ _ => true
  | _ => false

def isArray : Ty → Bool
  | .array _ => true
  | _ => false

def isApplied : Ty → Bool
  | .applied _ _ _ => true
  | _ => false

/-- Whether an array with this component is a generic array: its innermost component is a type
variable or an applied class. -/
def isGenericComponent : Ty → Bool
  | .var _ => true
  | .applied _ _ _ => true
  | .array component => component.isGenericComponent
  | .cls _ => false
  | .wildcard _ _ => false

/-- Whether the type is a generic array. -/
def isGenericArray : Ty → Bool
  | .array component => component.isGenericComponent
  | _ => false

/-! ## Common forms -/

/-- An applied class without an owner. -/
def app (raw : ClassId) (args : List Ty) : Ty :=
  .applied raw args none

/-- The wildcard without declared bounds. -/
def unbounded : Ty :=
  .wildcard [] []

/-- The wildcard with one upper bound. -/
def extending (bound : Ty) : Ty :=
  .wildcard [bound] []

/-- The wildcard with one lower bound. -/
def superOf (bound : Ty) : Ty :=
  .wildcard [] [bound]

/-- The array of the given number of dimensions over `element`. -/
def arrayOf (element : Ty) : Nat → Ty
  | 0 => element
  | dims + 1 => .array (arrayOf element dims)

/-- The number of array dimensions and the innermost component, which is no array. -/
def dimensions : Ty → Nat × Ty
  | .array component => (component.dimensions.1 + 1, component.dimensions.2)
  | other => (0, other)

/-! ## Equality is reflexive -/

mutual

theorem same_refl : ∀ t : Ty, same t t = true
  | .cls _ => by simp [same]
  | .applied _ args _ => by simp [same, sameAll_refl args]
  | .var _ => by simp [same]
  | .wildcard upper lower => by simp [same, sameAll_refl upper, sameAll_refl lower]
  | .array component => by simp [same, same_refl component]

theorem sameAll_refl : ∀ ts : List Ty, sameAll ts ts = true
  | [] => by simp [sameAll]
  | t :: ts => by simp [sameAll, same_refl t, sameAll_refl ts]

end

instance : ReflBEq Ty := ⟨fun {t} => same_refl t⟩

end Ty

end JavaGenerics
