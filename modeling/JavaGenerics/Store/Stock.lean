import JavaGenerics.Store

/-!
# Stock stores

No class file declares the primitives, and the rules of the language mention a handful of classes by
name, so a store has to start with those.  A slice of the collection classes on top of them gives
generic hierarchies of several levels.

* `Store.core` — `java.lang.Object`, the primitives and their boxes, `String`, `CharSequence`,
  `Comparable`, `Number`, `Cloneable` and `Serializable`.
* `Store.collections` — the core and the interfaces and classes around `List` and `Map`.

Ids follow the order of the lists below: **the position of a declaration is its id**.
-/

namespace JavaGenerics

/-- The store that holds exactly the listed declarations, at the ids given by their positions. -/
def Store.ofDeclarations (wellKnown : WellKnown) (classes : List ClassDecl)
    (params : List TypeParam) : Store where
  classes := classes.toArray
  classIndex := ⟨(classes.zipIdx.map fun (decl, i) => (decl.name, ⟨i⟩)).reverse⟩
  params := params.toArray
  paramIndex := ⟨(params.zipIdx.map fun (param, i) => ((param.name, param.declarer), ⟨i⟩)).reverse⟩
  wellKnown := wellKnown

namespace Store.Stock

/-! ## The core -/

/-- Ids of the core classes: the named ones first, then each primitive followed by its box. -/
def wellKnown : WellKnown where
  object := ⟨0⟩
  cloneable := ⟨1⟩
  serializable := ⟨2⟩
  charSequence := ⟨3⟩
  comparable := ⟨4⟩
  string := ⟨5⟩
  number := ⟨6⟩
  integer := ⟨16⟩
  primitives := .ofFn fun p => ⟨7 + 2 * p.index⟩
  boxes := .ofFn fun p => ⟨8 + 2 * p.index⟩

def object : Ty := .cls wellKnown.object

def cloneable : Ty := .cls wellKnown.cloneable

def serializable : Ty := .cls wellKnown.serializable

/-- `Comparable` of one class. -/
def comparableTo (id : ClassId) : Ty :=
  .app wellKnown.comparable [.cls id]

/-- The class that stands for a primitive. -/
def primitiveClass (p : Primitive) : ClassDecl :=
  { name := p.name, kind := .primitive p }

/-- The class that boxes a primitive.  Numeric boxes are numbers, which are serializable already. -/
def boxClass (p : Primitive) : ClassDecl :=
  let self := comparableTo (wellKnown.boxes.get p)
  match p with
  | .boolean | .char =>
    { name := p.boxName, superclass := some object, interfaces := [serializable, self] }
  | _ => { name := p.boxName, superclass := some (.cls wellKnown.number), interfaces := [self] }

/-- The classes every store starts with. -/
def coreClasses : List ClassDecl :=
  [ { name := "java.lang.Object" },
    { name := "java.lang.Cloneable", kind := .interface },
    { name := "java.io.Serializable", kind := .interface },
    { name := "java.lang.CharSequence", kind := .interface },
    { name := "java.lang.Comparable", kind := .interface, params := [⟨0⟩] },
    { name := "java.lang.String", superclass := some object,
      interfaces := [serializable, comparableTo wellKnown.string, .cls wellKnown.charSequence] },
    { name := "java.lang.Number", superclass := some object, interfaces := [serializable] } ] ++
  Primitive.all.flatMap fun p => [primitiveClass p, boxClass p]

/-- A parameter bounded by `Object`. -/
def paramOf (id : ClassId) (name : String) : TypeParam :=
  { name := name, declarer := .ofClass id, bounds := [object] }

def coreParams : List TypeParam :=
  [paramOf wellKnown.comparable "T"]

/-! ## Collections -/

/-- A supertype that takes the parameters of the declaring class as its arguments. -/
def passing (id : Nat) (vars : List Nat) : Ty :=
  .app ⟨id⟩ (vars.map fun v => .var ⟨v⟩)

/-- The collection interfaces and classes, at ids 23 to 32. -/
def collectionClasses : List ClassDecl :=
  [ { name := "java.lang.Iterable", kind := .interface, params := [⟨1⟩] },
    { name := "java.util.Collection", kind := .interface, params := [⟨2⟩],
      interfaces := [passing 23 [2]] },
    { name := "java.util.List", kind := .interface, params := [⟨3⟩],
      interfaces := [passing 24 [3]] },
    { name := "java.util.Set", kind := .interface, params := [⟨4⟩],
      interfaces := [passing 24 [4]] },
    { name := "java.util.AbstractCollection", params := [⟨5⟩], superclass := some object,
      interfaces := [passing 24 [5]] },
    { name := "java.util.AbstractList", params := [⟨6⟩], superclass := some (passing 27 [6]),
      interfaces := [passing 25 [6]] },
    { name := "java.util.ArrayList", params := [⟨7⟩], superclass := some (passing 28 [7]),
      interfaces := [passing 25 [7], cloneable, serializable] },
    { name := "java.util.Map", kind := .interface, params := [⟨8⟩, ⟨9⟩] },
    { name := "java.util.Map$Entry", kind := .interface, params := [⟨10⟩, ⟨11⟩],
      enclosing := some ⟨30⟩ },
    { name := "java.util.HashMap", params := [⟨12⟩, ⟨13⟩], superclass := some object,
      interfaces := [passing 30 [12, 13], cloneable, serializable] } ]

def collectionParams : List TypeParam :=
  [ paramOf ⟨23⟩ "T", paramOf ⟨24⟩ "E", paramOf ⟨25⟩ "E", paramOf ⟨26⟩ "E", paramOf ⟨27⟩ "E",
    paramOf ⟨28⟩ "E", paramOf ⟨29⟩ "E", paramOf ⟨30⟩ "K", paramOf ⟨30⟩ "V", paramOf ⟨31⟩ "K",
    paramOf ⟨31⟩ "V", paramOf ⟨32⟩ "K", paramOf ⟨32⟩ "V" ]

end Store.Stock

namespace Store

/-- The store every program needs. -/
def core : Store :=
  .ofDeclarations Stock.wellKnown Stock.coreClasses Stock.coreParams

/-- The core store with a slice of the collection classes. -/
def collections : Store :=
  .ofDeclarations Stock.wellKnown (Stock.coreClasses ++ Stock.collectionClasses)
    (Stock.coreParams ++ Stock.collectionParams)

end Store

end JavaGenerics
