import JavaGenerics.Text.Quoted
import JavaGenerics.DeclError

/-!
# What can be wrong with a signature

* `Problem` — what a reader of signatures stumbles over, with its wording.
* `SignatureError` — a problem at its place in the text, or a name that means nothing where the
  signature is used.
-/

namespace JavaGenerics

/-- What a reader of signatures stumbles over. -/
inductive Problem where
  | expectedClassType
  | expectedTypeVar
  | expectedReference
  | expectedIdentifier
  | expectedParameters
  | expectedClassBound
  | unclosedTypeVar
  | unclosedClassType
  | noTypeParams
  | noTypeArgs
  | tooManyDimensions
  | nestedTooDeeply
  | trailingText
  | noSegments
deriving DecidableEq, Repr

/-- The wording of a problem. -/
def Problem.message : Problem → String
  | .expectedClassType => "expected 'L'"
  | .expectedTypeVar => "expected 'T'"
  | .expectedReference => "expected a reference type"
  | .expectedIdentifier => "expected an identifier"
  | .expectedParameters => "expected '('"
  | .expectedClassBound => "expected ':' before a class bound"
  | .unclosedTypeVar => "expected ';' after a type variable"
  | .unclosedClassType => "expected ';' after a class type"
  | .noTypeParams => "empty type parameter list"
  | .noTypeArgs => "empty type argument list"
  | .tooManyDimensions => "too many array dimensions"
  | .nestedTooDeeply => "type arguments nested too deeply"
  | .trailingText => "trailing characters"
  | .noSegments => "class type without segments"

/-- Why a signature or descriptor is of no use. -/
inductive SignatureError where
  /-- The text is no signature.  The position counts bytes of its UTF-8 form. -/
  | malformed (signature : String) (position : Nat) (problem : Problem)
  /-- The text is no descriptor. -/
  | malformedDescriptor (text : String)
  /-- No type variable of this name is in scope. -/
  | notInScope (name : String)
  /-- A declaration is malformed. -/
  | declaration (error : DeclError)
deriving DecidableEq, Repr

/-- The wording of an error. -/
def SignatureError.message : SignatureError → String
  | .malformed signature position problem =>
    s!"invalid signature {quote signature} at offset {position}: {problem.message}"
  | .malformedDescriptor text => s!"invalid descriptor: {text}"
  | .notInScope name => s!"type variable {name} is not in scope"
  | .declaration error => error.message

end JavaGenerics
