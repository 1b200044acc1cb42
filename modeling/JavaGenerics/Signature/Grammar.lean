import JavaGenerics.Signature.Reader
import JavaGenerics.Signature.Tree

/-!
# The grammar of signatures

* `ClassSig.parse`, `MethodSig.parse` — the signature of a declaration.
* `TypeSig.parse` — the signature of a field.  Primitives are signatures too, so that parameter and
  result types can be read the same way.

Types nest through their arguments only: an array has one component, and that is no array once all
its brackets have been taken.  So **the recursion is on the number of argument lists that may still
be opened**, which is limited anyway.
-/

namespace JavaGenerics

/-- Most dimensions of an array. -/
def maxDimensions : Nat := 255

/-- Most argument lists that are open at a time. -/
def maxOpenArguments : Nat := 64

/-- The primitive that a letter stands for. -/
def Primitive.ofLetter? : Char → Option Primitive
  | 'B' => some .byte
  | 'C' => some .char
  | 'D' => some .double
  | 'F' => some .float
  | 'I' => some .int
  | 'J' => some .long
  | 'S' => some .short
  | 'Z' => some .boolean
  | _ => none

namespace Signature

open Reader

/-! ## Types -/

/-- A type variable. -/
def typeVar : Reader TypeSig := do
  expect 'T' .expectedTypeVar
  let name ← identifier
  expect ';' .unclosedTypeVar
  return .var name

/-- A class type, given a reader of argument lists. -/
def classTypeWith (args : Reader (List ArgSig)) : Reader ClassTypeSig := do
  expect 'L' .expectedClassType
  let first ← identifier
  let more ← whileNext '/' identifier
  let firstArgs ← args
  let nested ← whileNext '.' do
    let name ← identifier
    return .mk name (← args)
  expect ';' .unclosedClassType
  let names := first :: more
  return .mk names.dropLast (.mk (names.getLast (List.cons_ne_nil _ _)) firstArgs :: nested)

/-- A class type or a type variable. -/
def namedTypeWith (args : Reader (List ArgSig)) : Reader TypeSig := do
  match ← peek with
  | some 'L' => return .cls (← classTypeWith args)
  | some 'T' => typeVar
  | _ => fail .expectedReference

/-- A primitive, a class type or a type variable. -/
def elementWith (args : Reader (List ArgSig)) : Reader TypeSig := do
  match (← peek).bind Primitive.ofLetter? with
  | some p =>
    skip 1
    return .base p
  | none => namedTypeWith args

/-- A class type, a type variable or an array. -/
def referenceWith (args : Reader (List ArgSig)) : Reader TypeSig := do
  let dims ← countNext '['
  if dims = 0 then namedTypeWith args
  else if dims > maxDimensions then
    skip maxDimensions
    fail .tooManyDimensions
  else
    skip dims
    return (← elementWith args).arrayOf dims

/-- A type argument, given a reader of references. -/
def argumentWith (reference : Reader TypeSig) : Reader ArgSig := do
  if ← accept '*' then return .any
  else if ← accept '+' then return .extending (← reference)
  else if ← accept '-' then return .superOf (← reference)
  else return .exactly (← reference)

/-- An argument list, or no text at all, where `lists` more may be opened. -/
def arguments : (lists : Nat) → Reader (List ArgSig)
  | 0 => do
    match ← peek with
    | some '<' => fail .nestedTooDeeply
    | _ => return []
  | lists + 1 => do
    match ← peek with
    | some '<' =>
      skip 1
      let args ← Reader.repeatUntil (accept '>') (argumentWith (referenceWith (arguments lists)))
      if args.isEmpty then fail .noTypeArgs
      return args
    | _ => return []

def classType : Reader ClassTypeSig :=
  classTypeWith (arguments maxOpenArguments)

def reference : Reader TypeSig :=
  referenceWith (arguments maxOpenArguments)

/-- Any type. -/
def anyType : Reader TypeSig := do
  match (← peek).bind Primitive.ofLetter? with
  | some p =>
    skip 1
    return .base p
  | none => reference

/-! ## Declarations -/

/-- A type parameter with its bounds.  The class bound may be missing before interface bounds. -/
def typeParam : Reader ParamSig := do
  let name ← identifier
  expect ':' .expectedClassBound
  let classBound ←
    match ← peek with
    | some ':' | none => pure none
    | _ => some <$> reference
  let interfaceBounds ← whileNext ':' reference
  return { name, classBound, interfaceBounds }

/-- A list of type parameters, or no text at all. -/
def typeParams : Reader (List ParamSig) := do
  if ← accept '<' then
    let params ← Reader.repeatUntil (accept '>') typeParam
    if params.isEmpty then fail .noTypeParams
    return params
  else return []

/-- Nothing may be left. -/
def endOfText : Reader Unit := do
  if ← atEnd then pure () else fail .trailingText

def classDeclaration : Reader ClassSig := do
  let params ← typeParams
  let superclass ← classType
  let interfaces ← Reader.repeatUntil atEnd classType
  return { params, superclass, interfaces }

def fieldDeclaration : Reader TypeSig := do
  let ty ← anyType
  endOfText
  return ty

/-- What a method may throw: a type variable or a class type. -/
def thrown : Reader TypeSig := do
  match ← peek with
  | some 'T' => typeVar
  | _ => return .cls (← classType)

def methodDeclaration : Reader MethodSig := do
  let params ← typeParams
  expect '(' .expectedParameters
  let parameters ← Reader.repeatUntil (accept ')') anyType
  let result ← do
    if ← accept 'V' then pure none else some <$> anyType
  let throws ← whileNext '^' thrown
  endOfText
  return { params, parameters, result, throws }

end Signature

/-- Reads the signature of a class. -/
def ClassSig.parse (text : String) : Except SignatureError ClassSig :=
  Signature.classDeclaration.read text

/-- Reads the signature of a field. -/
def TypeSig.parse (text : String) : Except SignatureError TypeSig :=
  Signature.fieldDeclaration.read text

/-- Reads the signature of a method. -/
def MethodSig.parse (text : String) : Except SignatureError MethodSig :=
  Signature.methodDeclaration.read text

end JavaGenerics
