import JavaGenerics.Store

/-!
# How types are written

Messages and answers show types the way source code writes them: nested classes with a dot,
arguments in angle brackets, wildcards with a question mark.

* `Store.qualifiedName?` — a class, written through the classes that enclose it.  Enclosing links
  are data, and nothing keeps them from running in a circle of several classes.  **Such a name has
  no beginning, and writing it does not end**: there is no name then, and the function does not
  return.
* `Store.typeName?`, `Store.varSignature?` — any type, and a type variable with the element that
  declares it and its bounds.  They are written as far as the names in them are.
* `Store.className`, `Store.typeName`, `Store.varSignature` — the same as plain text, to be shown.
  They return exactly where there is a name, so the text is of use only there.  Errors keep the
  names themselves (`DeclError.Written`).
-/

namespace JavaGenerics

namespace Store

/-! ## Classes and variables -/

/-- The unqualified name of a class, or its id where the store does not know it. -/
def simpleName (store : Store) (id : ClassId) : String :=
  match store.class? id with
  | some decl => decl.simpleName
  | none => id.label

/-- The name of a class, written through the classes that enclose it.  A class that encloses itself
counts as not nested. -/
def qualifiedName? (store : Store) (id : ClassId) : Option String :=
  match store.class? id with
  | none => some id.label
  | some decl =>
    match decl.enclosing with
    | none => some decl.name
    | some outer =>
      if outer = id then some decl.name
      else do return (← store |>.qualifiedName? outer) ++ "." ++ decl.simpleName
partial_fixpoint

/-- The name of a class as source code writes it. -/
def className (store : Store) (id : ClassId) : String :=
  (store.qualifiedName? id).getD ""

/-- The name of a type variable, or its id where the store does not know it. -/
def varName (store : Store) (id : TypeVarId) : String :=
  match store.param? id with
  | some param => param.name
  | none => id.label

/-! ## Types -/

mutual

/-- A type, written through the names of its classes. -/
def typeName? (store : Store) : Ty → Option String
  | .cls id => store.qualifiedName? id
  | .var id => some (store.varName id)
  | .applied raw args owner => do
    let head ← headName? store raw owner
    match ← typeNames? store args with
    | [] => return head
    | names => return head ++ "<" ++ ", ".intercalate names ++ ">"
  | .wildcard upper lower => do
    match ← typeNames? store lower with
    | [] =>
      if upper.isEmpty || upper == [store.objectTy] then return "?"
      else return "? extends " ++ " & ".intercalate (← typeNames? store upper)
    | names => return "? super " ++ " & ".intercalate names
  | .array component => do return (← typeName? store component) ++ "[]"

/-- An applied class without its arguments.  An owner is written out only if it is an applied class
itself. -/
def headName? (store : Store) (raw : ClassId) : Option Ty → Option String
  | some owner =>
    if owner.isApplied then do return (← typeName? store owner) ++ "." ++ store.simpleName raw
    else store.qualifiedName? raw
  | none => store.qualifiedName? raw

def typeNames? (store : Store) : List Ty → Option (List String)
  | [] => some []
  | ty :: rest => do return (← typeName? store ty) :: (← typeNames? store rest)

end

/-- A type as source code writes it. -/
def typeName (store : Store) (ty : Ty) : String :=
  (store.typeName? ty).getD ""

/-- The element that declares a type variable. -/
def declarerName? (store : Store) : Declarer → Option String
  | .ofClass id => store.qualifiedName? id
  | .ofMethod owner name => do return (← store.qualifiedName? owner) ++ "." ++ name

/-- A type variable with the element that declares it and, unless they are just `Object`, its
bounds. -/
def varSignature? (store : Store) (id : TypeVarId) : Option String :=
  match store.param? id with
  | none => some id.label
  | some param => do
    let head := (← store.declarerName? param.declarer) ++ ":" ++ param.name
    if param.bounds.isEmpty || param.bounds == [store.objectTy] then return head
    else return head ++ " extends " ++ " & ".intercalate (← typeNames? store param.bounds)

/-- A type variable as messages show it in full. -/
def varSignature (store : Store) (id : TypeVarId) : String :=
  (store.varSignature? id).getD ""

end Store

end JavaGenerics
