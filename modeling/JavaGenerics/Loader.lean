import JavaGenerics.Loader.Denotation

/-!
# Loading declarations

* `Loader.loadClass` — declares a class from its signature, or declares it anew.
* `Loader.loadField` — records a field of a known class.
* `Loader.loadMethod` — the type of a method of a known class, with type variables of the method's
  own.

A bound may mention a parameter that is declared after it, so **all parameters of a list exist
before the first bound is looked at.**
-/

namespace JavaGenerics

/-- The type of a generic method. -/
structure MethodTy where
  params : List TypeVarId
  parameters : List Ty
  /-- Absent for `void`. -/
  result : Option Ty
  throws : List Ty

/-- The part of a binary name before its last dollar sign. -/
def outerName? (name : String) : Option String :=
  match name.toList.reverse.dropWhile (· != '$') with
  | _ :: before => some (String.ofList before.reverse)
  | [] => none

namespace Loader

/-! ## Type parameters -/

/-- Interns the parameters of a declaration and brings them into sight. -/
def internParams (declarer : Declarer) :
    List ParamSig → Scope → Loading (List TypeVarId × Scope)
  | [], scope => pure ([], scope)
  | param :: rest, scope => do
    let var ← Loading.internParam param.name declarer
    let (vars, scope) ← internParams declarer rest (scope.insert param.name var)
    return (var :: vars, scope)

/-- What each of a list of signatures denotes. -/
def denoteAll (scope : Scope) : List TypeSig → Loading (List Ty)
  | [] => pure []
  | sig :: rest => do
    let ty ← denote scope sig
    let tys ← denoteAll scope rest
    return ty :: tys

/-- What each of a list of class types denotes. -/
def denoteClasses (scope : Scope) : List ClassTypeSig → Loading (List Ty)
  | [] => pure []
  | sig :: rest => do
    let ty ← denoteClass scope sig
    let tys ← denoteClasses scope rest
    return ty :: tys

/-- Sets the bounds of the parameters of a declaration, one parameter after the other. -/
def setParamBounds (scope : Scope) : List ParamSig → List TypeVarId → Loading Unit
  | param :: params, var :: vars => do
    let bounds ← denoteAll scope param.bounds
    Loading.change (·.setBounds var bounds)
    setParamBounds scope params vars
  | _, _ => pure ()

/-- Declares type parameters on top of a scope. -/
def declareParams (params : List ParamSig) (declarer : Declarer) (scope : Scope) :
    Loading (List TypeVarId × Scope) := do
  let (vars, scope) ← internParams declarer params scope
  setParamBounds scope params vars
  return (vars, scope)

/-! ## Declarations -/

/-- The id of a class that has to be known. -/
def requireClass (id : ClassId) : Loading Unit := do
  match (← get).knownClass id with
  | .ok _ => pure ()
  | .error error => throw (.declaration error)

/-- **Declares a class from its signature.**  The name before the last dollar sign is that of the
enclosing class.  Fields recorded before stay.  Interfaces get no superclass, whatever their
signature names in its place. -/
def loadClass (name : String) (kind : DeclKind) (sig : ClassSig) : Loading ClassId := do
  let id ← Loading.internClass name
  let enclosing ←
    match outerName? name with
    | some outer => some <$> Loading.internClass outer
    | none => pure none
  let store ← get
  let fields := ((store.class? id).map ClassDecl.fields).getD []
  let outerScope :=
    match enclosing with
    | some outer => Scope.ofClass store outer
    | none => {}
  let (params, scope) ← declareParams sig.params (.ofClass id) outerScope
  let superclass ←
    if kind = .interface then pure none
    else some <$> denoteClass scope sig.superclass
  let interfaces ← denoteClasses scope sig.interfaces
  Loading.change (·.redeclareClass id
    { name, kind, params, superclass, interfaces, enclosing, fields })
  return id

/-- **Records a field of a class**, in place of a field of the same name. -/
def loadField (owner : ClassId) (name : String) (sig : TypeSig) : Loading Ty := do
  requireClass owner
  let ty ← denote (Scope.ofClass (← get) owner) sig
  modify fun store => store.modifyClass owner (·.putField { name := name, ty := ty })
  return ty

/-- **The type of a method.** -/
def loadMethod (owner : ClassId) (name : String) (sig : MethodSig) : Loading MethodTy := do
  requireClass owner
  let (params, scope) ←
    declareParams sig.params (.ofMethod owner name) (Scope.ofClass (← get) owner)
  let parameters ← denoteAll scope sig.parameters
  let result ←
    match sig.result with
    | some ty => some <$> denote scope ty
    | none => pure none
  let throws ← denoteAll scope sig.throws
  return { params, parameters, result, throws }

end Loader

end JavaGenerics
