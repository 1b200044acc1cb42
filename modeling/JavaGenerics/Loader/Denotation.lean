import JavaGenerics.Loader.Scope
import JavaGenerics.Signature.Problem
import JavaGenerics.Signature.Tree

/-!
# From signatures to types

A signature names its classes, and a type refers to them by id.  So what a signature denotes is
found by looking every name up in the store, where a class not heard of before gets a placeholder.

* `Loading` — a computation that may change the store.  **What it has changed before it fails stays
  changed.**
* `denote` — the type that a signature denotes in a scope.
-/

namespace JavaGenerics

/-- A computation that may change the store, and may fail after having done so. -/
abbrev Loading := ExceptT SignatureError (StateM Store)

namespace Loading

/-- The id of the class with this name, new or old. -/
def internClass (name : String) : Loading ClassId :=
  modifyGet fun store => store.internClass name

/-- The id of the variable with this name and declaring element, new or old. -/
def internParam (name : String) (declarer : Declarer) : Loading TypeVarId :=
  modifyGet fun store => store.internParam name declarer

/-- A change of the store that may be refused. -/
def change (f : Store → Except DeclError Store) : Loading Unit := do
  match f (← get) with
  | .ok store => set store
  | .error error => throw (.declaration error)

/-- Records the class that encloses another, unless one is recorded already. -/
def encloseBy (outer : Option ClassId) (id : ClassId) : Loading Unit :=
  match outer with
  | some outer => modify fun store =>
      store.modifyClass id fun decl => { decl with enclosing := some (decl.enclosing.getD outer) }
  | none => pure ()

end Loading

/-- A class inside what the segments before it denote.  It is an applied class if it has arguments
or is inside of one. -/
def nestIn (outer : Option Ty) (id : ClassId) (args : List Ty) : Ty :=
  match outer with
  | some owner =>
    if owner.isApplied || !args.isEmpty then .applied id args (some owner) else .cls id
  | none => if args.isEmpty then .cls id else .applied id args none

mutual

/-- **The type that a signature denotes.** -/
def denote (scope : Scope) : TypeSig → Loading Ty
  | .base p => do return .cls ((← get).wellKnown.primitives.get p)
  | .var name =>
    match scope.get? name with
    | some var => pure (.var var)
    | none => throw (.notInScope name)
  | .array component => do return .array (← denote scope component)
  | .cls sig => denoteClass scope sig

/-- The type that a class type denotes. -/
def denoteClass (scope : Scope) : ClassTypeSig → Loading Ty
  | .mk package segments => do
    match ← denoteSegments scope (ClassTypeSig.mk package []).packageName none segments with
    | some ty => pure ty
    | none => throw (.malformed (ClassTypeSig.mk package []).binaryName 0 .noSegments)

/-- What the segments of a class type denote inside `outer`, which the ones before them denote.
`stem` is the name up to where the next segment's name goes. -/
def denoteSegments (scope : Scope) (stem : String) (outer : Option Ty) :
    List SegmentSig → Loading (Option Ty)
  | [] => pure outer
  | segment :: rest => do
    let ty ← denoteSegment scope stem outer segment
    denoteSegments scope (stem ++ segment.name ++ "$") (some ty) rest

/-- What one segment denotes inside `outer`. -/
def denoteSegment (scope : Scope) (stem : String) (outer : Option Ty) : SegmentSig → Loading Ty
  | .mk name args => do
    let id ← Loading.internClass (stem ++ name)
    Loading.encloseBy (outer.bind Ty.rawClass?) id
    let args ← denoteArgs scope args
    return nestIn outer id args

/-- What type arguments denote. -/
def denoteArgs (scope : Scope) : List ArgSig → Loading (List Ty)
  | [] => pure []
  | arg :: rest => do
    let ty ← denoteArg scope arg
    let tys ← denoteArgs scope rest
    return ty :: tys

/-- What a type argument denotes. -/
def denoteArg (scope : Scope) : ArgSig → Loading Ty
  | .any => pure .unbounded
  | .extending bound => do return .extending (← denote scope bound)
  | .superOf bound => do return .superOf (← denote scope bound)
  | .exactly ty => denote scope ty

end

end JavaGenerics
