import Mathlib.Tactic.Common
import JavaGenerics.Signature.Grammar
import JavaGenerics.Proofs.ReaderMeaning

/-!
# Signatures as they are written

The grammar of signatures, said without a parser: how each tree is written down, and which trees can
be written down at all.

* `TypeSig.text`, `ClassTypeSig.text`, `ArgSig.text`, … — the written form.
* `TypeSig.Valid`, `ClassTypeSig.Valid`, `ArgSig.Valid`, … — names are identifiers, arguments and
  bounds are references, arrays have no more dimensions than allowed, and no more argument lists are
  open at a time than the given number.
* `ClassSig.render`, `MethodSig.render` and `TypeSig.render` — the text of a whole signature.
-/

namespace JavaGenerics

open Reader

/-! ## Letters -/

/-- The letter that stands for a primitive. -/
def Primitive.letter : Primitive → Char
  | .boolean => 'Z'
  | .byte => 'B'
  | .short => 'S'
  | .char => 'C'
  | .int => 'I'
  | .long => 'J'
  | .float => 'F'
  | .double => 'D'

lemma Primitive.ofLetter?_eq_some_iff {c : Char} {p : Primitive} :
    ofLetter? c = some p ↔ c = p.letter := by
  constructor
  · intro h
    unfold ofLetter? at h
    split at h <;> simp_all [letter]
    all_goals rw [← h]
  · rintro rfl
    cases p <;> rfl

/-! ## Written forms -/

mutual

/-- A letter, a class type, a variable, or a bracket before the component of an array. -/
def TypeSig.text : TypeSig → List Char
  | .base p => [p.letter]
  | .cls sig => sig.text
  | .var name => 'T' :: (name.toList ++ [';'])
  | .array component => '[' :: component.text

/-- The parts of the package, each before a slash, and the segments with dots between them. -/
def ClassTypeSig.text : ClassTypeSig → List Char
  | .mk package segments =>
    'L' :: (package.flatMap (fun part => part.toList ++ ['/']) ++
      (SegmentSig.textJoined segments ++ [';']))

def SegmentSig.text : SegmentSig → List Char
  | .mk name args => name.toList ++ ArgSig.textList args

def SegmentSig.textJoined : List SegmentSig → List Char
  | [] => []
  | segment :: rest => segment.text ++ SegmentSig.textNested rest

def SegmentSig.textNested : List SegmentSig → List Char
  | [] => []
  | segment :: rest => '.' :: (segment.text ++ SegmentSig.textNested rest)

def ArgSig.text : ArgSig → List Char
  | .any => ['*']
  | .extending bound => '+' :: bound.text
  | .superOf bound => '-' :: bound.text
  | .exactly ty => ty.text

/-- A list of arguments in angle brackets.  No list is written where there are no arguments. -/
def ArgSig.textList : List ArgSig → List Char
  | [] => []
  | arg :: rest => '<' :: (arg.text ++ (ArgSig.textAll rest ++ ['>']))

def ArgSig.textAll : List ArgSig → List Char
  | [] => []
  | arg :: rest => arg.text ++ ArgSig.textAll rest

end

/-- A type parameter with a colon before each bound.  A missing class bound leaves its colon. -/
def ParamSig.text (param : ParamSig) : List Char :=
  param.name.toList ++ (':' :: ((param.classBound.map TypeSig.text).getD [] ++
    param.interfaceBounds.flatMap fun bound => ':' :: bound.text))

/-- A list of type parameters in angle brackets, or nothing. -/
def ParamSig.textList : List ParamSig → List Char
  | [] => []
  | param :: rest => '<' :: ((param :: rest).flatMap ParamSig.text ++ ['>'])

def ClassSig.text (sig : ClassSig) : List Char :=
  ParamSig.textList sig.params ++ (sig.superclass.text ++ sig.interfaces.flatMap ClassTypeSig.text)

def MethodSig.text (sig : MethodSig) : List Char :=
  ParamSig.textList sig.params ++ ('(' :: (sig.parameters.flatMap TypeSig.text ++
    (')' :: ((sig.result.map TypeSig.text).getD ['V'] ++
      sig.throws.flatMap fun thrown => '^' :: thrown.text))))

def TypeSig.render (sig : TypeSig) : String :=
  String.ofList sig.text

def ClassSig.render (sig : ClassSig) : String :=
  String.ofList sig.text

def MethodSig.render (sig : MethodSig) : String :=
  String.ofList sig.text

/-! ## Validity -/

/-- A type that is no primitive. -/
def TypeSig.isReference : TypeSig → Bool
  | .base _ => false
  | _ => true

def TypeSig.isArray : TypeSig → Bool
  | .array _ => true
  | _ => false

mutual

/-- A type that can be written down, with at most `lists` argument lists open at a time. -/
def TypeSig.Valid (lists : Nat) : TypeSig → Prop
  | .base _ => True
  | .cls sig => sig.Valid lists
  | .var name => IsIdentifier name
  | .array component => component.dimensions.1 + 1 ≤ maxDimensions ∧ component.Valid lists

def ClassTypeSig.Valid (lists : Nat) : ClassTypeSig → Prop
  | .mk package segments =>
    (∀ part ∈ package, IsIdentifier part) ∧ segments ≠ [] ∧ SegmentSig.ValidAll lists segments

def SegmentSig.Valid (lists : Nat) : SegmentSig → Prop
  | .mk name args => IsIdentifier name ∧ ArgSig.ValidList lists args

def SegmentSig.ValidAll (lists : Nat) : List SegmentSig → Prop
  | [] => True
  | segment :: rest => segment.Valid lists ∧ SegmentSig.ValidAll lists rest

def ArgSig.Valid (lists : Nat) : ArgSig → Prop
  | .any => True
  | .extending bound => bound.isReference = true ∧ bound.Valid lists
  | .superOf bound => bound.isReference = true ∧ bound.Valid lists
  | .exactly ty => ty.isReference = true ∧ ty.Valid lists

/-- Arguments that can be written down, where their own list counts as open. -/
def ArgSig.ValidList (lists : Nat) : List ArgSig → Prop
  | [] => True
  | arg :: rest => 0 < lists ∧ arg.Valid (lists - 1) ∧ ArgSig.ValidAll (lists - 1) rest

def ArgSig.ValidAll (lists : Nat) : List ArgSig → Prop
  | [] => True
  | arg :: rest => arg.Valid lists ∧ ArgSig.ValidAll lists rest

end

/-- A type parameter that can be written down: it has a bound, and all its bounds are references. -/
structure ParamSig.Valid (param : ParamSig) : Prop where
  name : IsIdentifier param.name
  bounded : param.bounds ≠ []
  bounds : ∀ bound ∈ param.bounds, bound.isReference = true ∧ bound.Valid maxOpenArguments

structure ClassSig.Valid (sig : ClassSig) : Prop where
  params : ∀ param ∈ sig.params, param.Valid
  superclass : sig.superclass.Valid maxOpenArguments
  interfaces : ∀ parent ∈ sig.interfaces, parent.Valid maxOpenArguments

/-- A class type or a type variable, which is also what may be thrown. -/
def TypeSig.isNamed : TypeSig → Bool
  | .cls _ => true
  | .var _ => true
  | _ => false

structure MethodSig.Valid (sig : MethodSig) : Prop where
  params : ∀ param ∈ sig.params, param.Valid
  parameters : ∀ ty ∈ sig.parameters, ty.Valid maxOpenArguments
  result : ∀ ty, sig.result = some ty → ty.Valid maxOpenArguments
  throws : ∀ ty ∈ sig.throws, ty.isNamed = true ∧ ty.Valid maxOpenArguments

end JavaGenerics
