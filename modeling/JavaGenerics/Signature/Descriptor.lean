import JavaGenerics.Signature.Grammar

/-!
# Descriptors

A descriptor is the erased form of a signature: primitives, classes by their binary name, and arrays
of these.  It is read into the same trees, with a nested class as a single segment that keeps its
dollar signs.

* `TypeSig.parseDescriptor` — reads a descriptor.  What cannot be read is reported as it stands at
  the point of failure; text after a complete descriptor puts the blame on the whole.
-/

namespace JavaGenerics

namespace Descriptor

/-- Splits at every slash. -/
def splitSlashes : List Char → List (List Char)
  | [] => [[]]
  | c :: rest =>
    if c = '/' then [] :: splitSlashes rest
    else
      match splitSlashes rest with
      | part :: parts => (c :: part) :: parts
      | [] => [[c]]

/-- The class with the given name, whose parts are separated by slashes and may not be empty. -/
def classNamed? (name : List Char) : Option ClassTypeSig :=
  let parts := splitSlashes name
  if parts.any List.isEmpty then none
  else
    match (parts.map String.ofList).reverse with
    | last :: package => some (.mk package.reverse [.mk last []])
    | [] => none

/-- The text is no descriptor. -/
def refuse {α : Type} (text : List Char) : Except SignatureError α :=
  .error (.malformedDescriptor (String.ofList text))

/-- A primitive or a class at the start of a text, and what follows it. -/
def element (text : List Char) : Except SignatureError (TypeSig × List Char) :=
  match text with
  | [] => refuse text
  | letter :: rest =>
    match Primitive.ofLetter? letter with
    | some p => .ok (.base p, rest)
    | none =>
      if letter = 'L' then
        match rest.dropWhile (· != ';') with
        | [] => refuse text
        | _ :: after =>
          match classNamed? (rest.takeWhile (· != ';')) with
          | some sig => .ok (.cls sig, after)
          | none => refuse text
      else refuse text

/-- A type at the start of a text, and what follows it. -/
def fieldType (text : List Char) : Except SignatureError (TypeSig × List Char) :=
  let dims := (text.takeWhile (· == '[')).length
  if dims > maxDimensions then refuse text
  else (element (text.drop dims)).map fun (ty, rest) => (ty.arrayOf dims, rest)

end Descriptor

/-- Reads a descriptor. -/
def TypeSig.parseDescriptor (text : String) : Except SignatureError TypeSig :=
  match Descriptor.fieldType text.toList with
  | .ok (ty, []) => .ok ty
  | .ok (_, _ :: _) => .error (.malformedDescriptor text)
  | .error error => .error error

end JavaGenerics
