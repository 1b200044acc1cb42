import JavaGenerics.Declaration
import JavaGenerics.Index
import JavaGenerics.DeclError

/-!
# Declaration stores

Types mention classes and variables by id only.  A store hands those ids out, in order of first
mention, and holds the declaration behind each; a class that has been mentioned but not yet declared
has an empty placeholder.

* `Store` — declarations by id, and two indexes that find the ids again.
* `WellKnown` — ids of the classes that the rules of the language speak of.
* `Store.internClass`, `Store.internParam` — the id of a name, new or old.
* `Store.declareClass`, `Store.redeclareClass`, `Store.modifyClass` — declaring by name, redeclaring
  by id (perhaps under another name), and changing in place.
-/

namespace JavaGenerics

/-- The classes that the rules of the language speak of. -/
structure WellKnown where
  object : ClassId
  cloneable : ClassId
  serializable : ClassId
  comparable : ClassId
  charSequence : ClassId
  string : ClassId
  number : ClassId
  integer : ClassId
  /-- The class that stands for each primitive. -/
  primitives : PerPrimitive ClassId
  /-- The class that boxes each primitive. -/
  boxes : PerPrimitive ClassId
deriving DecidableEq, Repr

namespace WellKnown

/-- The primitive that a class stands for. -/
def primitive? (known : WellKnown) (id : ClassId) : Option Primitive :=
  known.primitives.find? id

/-- The primitive that a class boxes. -/
def unboxed? (known : WellKnown) (id : ClassId) : Option Primitive :=
  known.boxes.find? id

/-- Whether the class stands for a primitive. -/
def isPrimitive (known : WellKnown) (id : ClassId) : Bool :=
  (known.primitive? id).isSome

/-- Whether every array that is not generic is an instance of the class. -/
def holdsArrays (known : WellKnown) (id : ClassId) : Bool :=
  id == known.object || id == known.cloneable || id == known.serializable

end WellKnown

/-- Declarations of classes and type variables. -/
structure Store where
  classes : Array ClassDecl
  classIndex : Index String ClassId
  params : Array TypeParam
  paramIndex : Index (String × Declarer) TypeVarId
  wellKnown : WellKnown

namespace Store

/-! ## Looking up -/

/-- The declaration of a class. -/
def class? (store : Store) (id : ClassId) : Option ClassDecl :=
  store.classes[id.index]?

/-- The declaration of a type variable. -/
def param? (store : Store) (id : TypeVarId) : Option TypeParam :=
  store.params[id.index]?

/-- The class with exactly this binary name. -/
def idOf? (store : Store) (name : String) : Option ClassId :=
  store.classIndex.get? name

/-- The class with this binary name, where a name without a package may also mean a class of
`java.lang`. -/
def findClass? (store : Store) (name : String) : Option ClassId :=
  match store.idOf? name with
  | some id => some id
  | none => if name.toList.contains '.' then none else store.idOf? ("java.lang." ++ name)

def size (store : Store) : Nat :=
  store.classes.size

/-- The declaration of a class that has to be known. -/
def knownClass (store : Store) (id : ClassId) : Except DeclError ClassDecl :=
  match store.class? id with
  | some decl => .ok decl
  | none => .error (.unknownClass id)

/-- The declaration of a type variable that has to be known. -/
def knownParam (store : Store) (id : TypeVarId) : Except DeclError TypeParam :=
  match store.param? id with
  | some param => .ok param
  | none => .error (.unknownTypeVar id)

/-- The type of every reference. -/
def objectTy (store : Store) : Ty :=
  .cls store.wellKnown.object

/-- The listed bounds, or the implicit bound where none is listed. -/
def boundsOrObject (store : Store) (bounds : List Ty) : List Ty :=
  if bounds.isEmpty then [store.objectTy] else bounds

/-! ## Classes -/

/-- The id of the class with this name.  A new name gets the next id and a placeholder. -/
def internClass (store : Store) (name : String) : ClassId × Store :=
  match store.idOf? name with
  | some id => (id, store)
  | none =>
    let id : ClassId := ⟨store.classes.size⟩
    (id, { store with
      classes := store.classes.push { name := name }
      classIndex := store.classIndex.insert name id })

/-- Changes the declaration of a class in place.  Unknown ids are left alone, and the index is not
told of a changed name. -/
def modifyClass (store : Store) (id : ClassId) (change : ClassDecl → ClassDecl) : Store :=
  match store.class? id with
  | some decl => { store with classes := store.classes.setIfInBounds id.index (change decl) }
  | none => store

/-- Replaces the declaration behind a known id.  A changed name moves the class to its new place in
the index: whoever was found there is found there no more. -/
def redeclareClass (store : Store) (id : ClassId) (decl : ClassDecl) : Except DeclError Store := do
  let old ← store.knownClass id
  let classIndex :=
    if old.name = decl.name then store.classIndex
    else (store.classIndex.erase old.name).insert decl.name id
  return { store with
    classes := store.classes.setIfInBounds id.index decl
    classIndex := classIndex }

/-- Interns the name of a declaration and installs the declaration there. -/
def declareClass (store : Store) (decl : ClassDecl) : ClassId × Store :=
  let (id, store) := store.internClass decl.name
  (id, { store with classes := store.classes.setIfInBounds id.index decl })

/-! ## Type variables -/

/-- The id of the variable with this name and declaring element.  A new pair gets the next id and no
bounds. -/
def internParam (store : Store) (name : String) (declarer : Declarer) : TypeVarId × Store :=
  match store.paramIndex.get? (name, declarer) with
  | some id => (id, store)
  | none =>
    let id : TypeVarId := ⟨store.params.size⟩
    (id, { store with
      params := store.params.push { name := name, declarer := declarer }
      paramIndex := store.paramIndex.insert (name, declarer) id })

/-- Replaces the declaration behind a known variable, and its place in the index if its name or
declaring element changed. -/
def redeclareParam (store : Store) (id : TypeVarId) (param : TypeParam) :
    Except DeclError Store := do
  let old ← store.knownParam id
  let paramIndex :=
    if old.name = param.name ∧ old.declarer = param.declarer then store.paramIndex
    else (store.paramIndex.erase (old.name, old.declarer)).insert (param.name, param.declarer) id
  return { store with
    params := store.params.setIfInBounds id.index param
    paramIndex := paramIndex }

/-- Sets the bounds of a known variable.  A bound may mention the variable itself, so the variable
has to exist before its bounds do. -/
def setBounds (store : Store) (id : TypeVarId) (bounds : List Ty) : Except DeclError Store := do
  let param ← store.knownParam id
  return { store with
    params := store.params.setIfInBounds id.index { param with bounds := bounds } }

/-- Interns a variable and sets its bounds. -/
def declareParam (store : Store) (name : String) (declarer : Declarer) (bounds : List Ty) :
    TypeVarId × Store :=
  let (id, store) := store.internParam name declarer
  match store.param? id with
  | some param =>
    (id, { store with
      params := store.params.setIfInBounds id.index { param with bounds := bounds } })
  | none => (id, store)

end Store

end JavaGenerics
