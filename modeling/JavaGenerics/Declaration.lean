import JavaGenerics.Ty

/-!
# Declarations

What a store knows about a nominal type or a type variable: the introspectable part of its source
declaration.

* `ClassDecl` — a class, interface or primitive, with its parameters, supertypes and fields.
* `Edges` — the part of a declaration that walking up the hierarchy reads.  It is what a cache
  keeps.
* `TypeParam` — a type variable, the element that introduces it and its declared upper bounds.
-/

namespace JavaGenerics

/-- What a nominal type is declared as. -/
inductive DeclKind where
  | ordinary
  | interface
  | primitive (p : Primitive)
deriving DecidableEq, Repr, Inhabited

/-- The element that introduces a type variable. -/
inductive Declarer where
  | ofClass (id : ClassId)
  | ofMethod (owner : ClassId) (name : String)
deriving DecidableEq, Repr, Inhabited

/-- A declared type variable. -/
structure TypeParam where
  name : String
  declarer : Declarer
  /-- Declared upper bounds in source order.  None means unbounded. -/
  bounds : List Ty := []
deriving Inhabited, Repr

/-- A declared field. -/
structure Field where
  name : String
  ty : Ty
deriving Inhabited, Repr

/-- The declaration of a nominal type. -/
structure ClassDecl where
  /-- Binary name, such as `java.util.Map$Entry`. -/
  name : String
  kind : DeclKind := .ordinary
  params : List TypeVarId := []
  superclass : Option Ty := none
  interfaces : List Ty := []
  /-- The lexically enclosing class of a nested declaration. -/
  enclosing : Option ClassId := none
  fields : List Field := []
deriving Inhabited, Repr

/-- The part of a declaration that walking up the hierarchy reads. -/
structure Edges where
  kind : DeclKind
  params : List TypeVarId
  superclass : Option Ty
  interfaces : List Ty
deriving Inhabited, Repr

/-- The supertypes in the order in which they are followed: the superclass first. -/
def Edges.supertypes (edges : Edges) : List Ty :=
  edges.superclass.toList ++ edges.interfaces

namespace ClassDecl

/-- The walkable part of the declaration. -/
def edges (decl : ClassDecl) : Edges where
  kind := decl.kind
  params := decl.params
  superclass := decl.superclass
  interfaces := decl.interfaces

/-- The unqualified name: what follows the last `$` or `.`. -/
def simpleName (decl : ClassDecl) : String :=
  String.ofList
    (decl.name.toList.reverse.takeWhile fun c => c != '$' && c != '.').reverse

/-- The first field with the given name. -/
def field? (decl : ClassDecl) (name : String) : Option Field :=
  decl.fields.find? fun field => field.name == name

/-- Records a field after all others, in place of every field of the same name. -/
def putField (decl : ClassDecl) (field : Field) : ClassDecl :=
  { decl with fields := (decl.fields.filter fun old => old.name != field.name) ++ [field] }

end ClassDecl

end JavaGenerics
