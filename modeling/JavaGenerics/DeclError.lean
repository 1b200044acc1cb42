import JavaGenerics.Ty

/-!
# Malformed declarations

"Unrelated" is an answer, not an error: a walk that finds no path says so.  What is left is a
declaration that does not make sense, or a limit that was reached before an answer was found.

* `DeclError` — the causes.
* `DeclError.message?` — their wording, which takes all the names in them.
* `DeclError.Written` — **an error is reported only if the names in it get finished.**  Writing the
  name of a class need not end, and then no error comes back, nor anything else.
-/

namespace JavaGenerics

/-- Why a question about types has no answer.  Names of classes and types are kept as they are to be
shown, and as `none` where writing them does not end. -/
inductive DeclError where
  /-- No class has this id. -/
  | unknownClass (id : ClassId)
  /-- No type variable has this id. -/
  | unknownTypeVar (id : TypeVarId)
  /-- A class is applied to another number of arguments than it declares parameters. -/
  | wrongArity (className : Option String) (expected found : Nat)
  /-- A wildcard stands as the component of an array. -/
  | wildcardComponent (wildcard : Option String)
  /-- A supertype is neither a class nor an applied class. -/
  | badSupertype (className edge : Option String)
  /-- There is nothing to normalize. -/
  | noBounds
  /-- A variable is bound to itself, perhaps through other variables. -/
  | cyclicVariable (varName : String)
  /-- More variables are bound to one another in a row than the limit allows. -/
  | longVariableChain (varName : String) (limit : Nat)
  /-- A walk is nested more deeply than the limit allows. -/
  | nestedTooDeep (limit : Nat)
  /-- A type cannot own instances of the class. -/
  | foreignOwner (owner : Option String) (className : String)
  /-- A parameter of the class has no binding. -/
  | unboundParameter (varName : String)
deriving DecidableEq, Repr, Inhabited

namespace DeclError

/-- The wording of an error, if all names in it get finished. -/
def message? : DeclError → Option String
  | .unknownClass id => some s!"unknown class id {id.label}"
  | .unknownTypeVar id => some s!"unknown type variable id {id.label}"
  | .wrongArity className expected found => do
    let className ← className
    return s!"wrong number of type arguments for {className}: expected {expected}, found {found}"
  | .wildcardComponent wildcard => do
    let wildcard ← wildcard
    return s!"wildcard {wildcard} is not allowed as an array component"
  | .badSupertype className edge => do
    let className ← className
    let edge ← edge
    return s!"supertype {edge} of {className} is not a class or parameterized type"
  | .noBounds => some "bound list must not be empty"
  | .cyclicVariable varName =>
    some s!"type variable {varName} is bound to itself through a chain of variables"
  | .longVariableChain varName limit =>
    some s!"type variable chain starting at {varName} exceeds {limit} steps"
  | .nestedTooDeep limit =>
    some s!"type hierarchy is deeper than {limit} levels (cyclic supertypes?)"
  | .foreignOwner owner className => do
    let owner ← owner
    return s!"{owner} is not a valid owner type for {className}"
  | .unboundParameter varName => some s!"no binding for type variable {varName}"

/-- The wording of an error as plain text, for those that are reported. -/
def message (error : DeclError) : String :=
  error.message?.getD ""

/-- All names in the error get finished, so that it is reported. -/
def Written (error : DeclError) : Prop :=
  error.message?.isSome = true

end DeclError

end JavaGenerics
