/-!
# Primitive types

Eight types of the language are not classes, yet the rest of this library wants to treat them as
nominal types like any other: each has a class of its own in the store, a *box* (the class that
wraps it), and a set of wider primitives its values convert to.

* `Primitive` — the eight types, and `Primitive.all` — their fixed order, which every listing of
  primitives follows.
* `Primitive.widensTo` — widening conversion.  Identity is not a widening.
* `PerPrimitive` — one value for each primitive, a total table with no missing entry.
-/

namespace JavaGenerics

/-- The eight primitive types. -/
inductive Primitive where
  | boolean
  | byte
  | short
  | char
  | int
  | long
  | float
  | double
deriving DecidableEq, Repr, Inhabited

namespace Primitive

/-- Every primitive, in the order in which listings show them. -/
def all : List Primitive :=
  [boolean, byte, short, char, int, long, float, double]

/-- Position of a primitive in `all`. -/
def index : Primitive → Nat
  | boolean => 0
  | byte => 1
  | short => 2
  | char => 3
  | int => 4
  | long => 5
  | float => 6
  | double => 7

/-- The keyword that names the primitive in source text. -/
def name : Primitive → String
  | boolean => "boolean"
  | byte => "byte"
  | short => "short"
  | char => "char"
  | int => "int"
  | long => "long"
  | float => "float"
  | double => "double"

/-- Binary name of the class that boxes the primitive. -/
def boxName : Primitive → String
  | boolean => "java.lang.Boolean"
  | byte => "java.lang.Byte"
  | short => "java.lang.Short"
  | char => "java.lang.Character"
  | int => "java.lang.Integer"
  | long => "java.lang.Long"
  | float => "java.lang.Float"
  | double => "java.lang.Double"

/-- The primitives a value of the given one widens to. -/
def widenings : Primitive → List Primitive
  | boolean => []
  | byte => [short, int, long, float, double]
  | short => [int, long, float, double]
  | char => [int, long, float, double]
  | int => [long, float, double]
  | long => [float, double]
  | float => [double]
  | double => []

/-- Widening conversion between primitives.  It is irreflexive and transitive, and `boolean` takes
no part in it. -/
def widensTo (source target : Primitive) : Bool :=
  source.widenings.contains target

/-- The primitive with the given keyword. -/
def ofName? (keyword : String) : Option Primitive :=
  all.find? fun p => p.name == keyword

theorem mem_all (p : Primitive) : p ∈ all := by
  cases p <;> decide

theorem widensTo_irrefl (p : Primitive) : p.widensTo p = false := by
  cases p <;> decide

theorem widensTo_trans {p q r : Primitive} (hpq : p.widensTo q = true)
    (hqr : q.widensTo r = true) : p.widensTo r = true := by
  revert hpq hqr
  cases p <;> cases q <;> cases r <;> decide

end Primitive

/-- One value for each primitive. -/
structure PerPrimitive (α : Type) where
  boolean : α
  byte : α
  short : α
  char : α
  int : α
  long : α
  float : α
  double : α
deriving DecidableEq, Repr

namespace PerPrimitive

variable {α : Type}

/-- The value recorded for `p`. -/
def get (table : PerPrimitive α) : Primitive → α
  | .boolean => table.boolean
  | .byte => table.byte
  | .short => table.short
  | .char => table.char
  | .int => table.int
  | .long => table.long
  | .float => table.float
  | .double => table.double

/-- The table that records `f p` for each primitive `p`. -/
def ofFn (f : Primitive → α) : PerPrimitive α where
  boolean := f .boolean
  byte := f .byte
  short := f .short
  char := f .char
  int := f .int
  long := f .long
  float := f .float
  double := f .double

/-- The first primitive, in the order of `Primitive.all`, whose recorded value is `x`. -/
def find? [BEq α] (table : PerPrimitive α) (x : α) : Option Primitive :=
  Primitive.all.find? fun p => table.get p == x

@[simp]
theorem get_ofFn (f : Primitive → α) (p : Primitive) : (ofFn f).get p = f p := by
  cases p <;> rfl

end PerPrimitive

end JavaGenerics
