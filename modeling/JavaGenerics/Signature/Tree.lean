import JavaGenerics.Primitive

/-!
# Generic signatures

Class files record generic types as text.  Read back, such a signature is a tree that names classes
and type variables but knows nothing about their declarations.

* `TypeSig` — a type: a primitive, a class type, a type variable or an array.
* `ClassTypeSig` — a class type: a package and one segment for each level of nesting, outermost
  first, every one with arguments of its own.
* `ClassTypeSig.binaryNameOfFirst` — the name of the class that the first segments denote.
* `ClassSig`, `MethodSig` — the signatures of whole declarations.
-/

namespace JavaGenerics

mutual

/-- A type in a signature. -/
inductive TypeSig where
  | base (p : Primitive)
  | cls (sig : ClassTypeSig)
  | var (name : String)
  | array (component : TypeSig)

/-- A class type, such as `Map<K, V>.Entry<K, V>` with its package. -/
inductive ClassTypeSig where
  | mk (package : List String) (segments : List SegmentSig)

/-- The simple name of a class with its type arguments. -/
inductive SegmentSig where
  | mk (name : String) (args : List ArgSig)

/-- A type argument. -/
inductive ArgSig where
  /-- The unbounded wildcard. -/
  | any
  /-- A wildcard with an upper bound. -/
  | extending (bound : TypeSig)
  /-- A wildcard with a lower bound. -/
  | superOf (bound : TypeSig)
  /-- A type. -/
  | exactly (ty : TypeSig)

end

instance : Inhabited TypeSig := ⟨.base .int⟩

namespace SegmentSig

def name : SegmentSig → String
  | .mk name _ => name

def args : SegmentSig → List ArgSig
  | .mk _ args => args

end SegmentSig

/-- The array of the given number of dimensions over `element`. -/
def TypeSig.arrayOf (element : TypeSig) : Nat → TypeSig
  | 0 => element
  | dims + 1 => .array (arrayOf element dims)

/-- The number of array dimensions and the innermost component, which is no array. -/
def TypeSig.dimensions : TypeSig → Nat × TypeSig
  | .array component => (component.dimensions.1 + 1, component.dimensions.2)
  | other => (0, other)

namespace ClassTypeSig

def package : ClassTypeSig → List String
  | .mk package _ => package

def segments : ClassTypeSig → List SegmentSig
  | .mk _ segments => segments

/-- The package as it starts a binary name: every part is followed by a dot. -/
def packageName (sig : ClassTypeSig) : String :=
  String.join (sig.package.map (· ++ "."))

/-- Binary name of the class that the first `count` segments denote. -/
def binaryNameOfFirst (sig : ClassTypeSig) (count : Nat) : String :=
  sig.packageName ++ "$".intercalate ((sig.segments.take count).map SegmentSig.name)

/-- Binary name of the class, such as `java.util.Map$Entry`. -/
def binaryName (sig : ClassTypeSig) : String :=
  sig.binaryNameOfFirst sig.segments.length

end ClassTypeSig

/-- A declared type parameter. -/
structure ParamSig where
  name : String
  /-- Absent if all bounds are interfaces. -/
  classBound : Option TypeSig
  interfaceBounds : List TypeSig

/-- All bounds in source order. -/
def ParamSig.bounds (param : ParamSig) : List TypeSig :=
  param.classBound.toList ++ param.interfaceBounds

/-- The signature of a class declaration. -/
structure ClassSig where
  params : List ParamSig
  superclass : ClassTypeSig
  interfaces : List ClassTypeSig

/-- The signature of a method declaration. -/
structure MethodSig where
  params : List ParamSig
  parameters : List TypeSig
  /-- Absent for `void`. -/
  result : Option TypeSig
  throws : List TypeSig

end JavaGenerics
