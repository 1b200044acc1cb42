import JavaGenerics.Signature.Grammar
import JavaGenerics.Proofs.BytePositions

/-!
# Reading signatures by position

A reader that keeps its text in one piece remembers how many bytes it has come, and how many
argument lists are open.  Much can go wrong with that: a cut may land inside a character or outside
the text, the position may move back, a loop may go round without reading anything, a list may be
closed that was not open.  Here **each of these is an outcome of its own, which is looked for where
it could come up** and ends the reading.

* `Slip` — what can go wrong.
* `ByteReader` — a reader by position.  It cuts by `rest` and `upTo`, moves by `moveTo`, closes
  lists by `leave`, and does none of these otherwise.
* `ByteReader.onward` — recursion.  Whoever reads again has to have come further.
* `ByteSignature` — the readers of signatures.
-/

namespace JavaGenerics

/-- How far a reader has come. -/
structure Mark where
  /-- The bytes that lie behind. -/
  position : Nat := 0
  /-- The argument lists that are open. -/
  opened : Nat := 0
deriving DecidableEq, Repr

/-- What a reader by position must never do. -/
inductive Slip where
  /-- To cut, or to stand, where no character starts and the text does not end. -/
  | offBoundary (position : Nat)
  /-- To move back. -/
  | backward (position : Nat)
  /-- To start another round, or to read a nested part, without having come further. -/
  | idle (position : Nat)
  /-- To close a list where none is open. -/
  | noneOpen
deriving DecidableEq, Repr

/-- Why a reader by position ends early. -/
inductive Halt where
  | fault (fault : Fault)
  | slip (slip : Slip)
deriving DecidableEq, Repr

/-- Reads an `α` out of a text. -/
abbrev ByteReader := ReaderT String (StateT Mark (Except Halt))

namespace ByteReader

variable {α : Type}

/-! ## Positions -/

/-- Reports a problem at the current position. -/
def fail (problem : Problem) : ByteReader α :=
  fun _ mark => .error (.fault ⟨mark.position, problem⟩)

/-- Slips. -/
def slip (slip : Slip) : ByteReader α :=
  fun _ _ => .error (.slip slip)

/-- The text from the position on. -/
def rest : ByteReader String := fun text mark =>
  match textFrom? text mark.position with
  | some left => .ok (left, mark)
  | none => slip (.offBoundary mark.position) text mark

/-- The first bytes of a text that has been cut off already. -/
def upTo (left : String) (bytes : Nat) : ByteReader String :=
  match textUpTo? left bytes with
  | some found => pure found
  | none => slip (.offBoundary bytes)

/-- Goes to a position. -/
def moveTo (position : Nat) : ByteReader Unit := fun text mark =>
  if position < mark.position then slip (.backward position) text mark
  else if String.Pos.Raw.IsValid text ⟨position⟩ then .ok ((), { mark with position })
  else slip (.offBoundary position) text mark

/-- Goes some bytes further. -/
def advance (bytes : Nat) : ByteReader Unit :=
  fun text mark => moveTo (mark.position + bytes) text mark

/-! ## Argument lists -/

/-- How many argument lists are open. -/
def opened : ByteReader Nat :=
  fun _ mark => .ok (mark.opened, mark)

/-- One more list is open. -/
def enter : ByteReader Unit :=
  fun _ mark => .ok ((), { mark with opened := mark.opened + 1 })

/-- One list fewer is open. -/
def leave : ByteReader Unit := fun text mark =>
  match mark.opened with
  | 0 => slip .noneOpen text mark
  | opened + 1 => .ok ((), { mark with opened })

/-- Reads with one more list open. -/
def inList (body : ByteReader α) : ByteReader α := do
  enter
  let a ← body
  leave
  return a

/-! ## Characters -/

/-- The next character, which is left where it is. -/
def peek : ByteReader (Option Char) :=
  return (← rest).toList.head?

/-- Whether the position is at the end, or behind it. -/
def atEnd : ByteReader Bool :=
  fun text mark => .ok (decide (text.utf8ByteSize ≤ mark.position), mark)

/-- Takes the next character if it is `c`, and tells whether it was. -/
def accept (c : Char) : ByteReader Bool := do
  if (← peek) = some c then
    advance c.utf8Size
    return true
  else return false

/-- Takes the next character, which has to be `c`. -/
def expect (c : Char) (problem : Problem) : ByteReader Unit := do
  if ← accept c then pure () else fail problem

/-- Takes the longest identifier, which has to have a character. -/
def identifier : ByteReader String := do
  let left ← rest
  let bytes := bytesBefore Reader.isDelimiter left
  if bytes = 0 then fail .expectedIdentifier
  else
    advance bytes
    upTo left bytes

/-- The number of times that the byte of `c` comes next in a row. -/
def countNext (c : Char) : ByteReader Nat :=
  return leadingBytes c.toUInt8 (← rest)

/-! ## Recursion -/

/-- Reads by steps that read again, which they may do further on only. -/
def onward (step : ByteReader α → ByteReader α) : ByteReader α := fun text mark =>
  step (fun _ later =>
    if mark.position < later.position then
      if later.position ≤ text.utf8ByteSize then onward step text later
      else slip (.offBoundary later.position) text later
    else slip (.idle later.position) text later) text mark
termination_by text mark => text.utf8ByteSize - mark.position

/-- Reads items until `stop` says that they are at an end. -/
def repeatUntil (stop : ByteReader Bool) (item : ByteReader α) : ByteReader (List α) :=
  onward fun again => do
    if ← stop then pure []
    else
      let head ← item
      let tail ← again
      pure (head :: tail)

/-- Reads one item after each `c` that comes next. -/
def whileNext (c : Char) (item : ByteReader α) : ByteReader (List α) :=
  ByteReader.repeatUntil (do return !(← accept c)) item

/-- Reads a whole text, unless it slips. -/
def read (reader : ByteReader α) (text : String) : Except Slip (Except SignatureError α) :=
  match reader text {} with
  | .ok (result, _) => .ok (.ok result)
  | .error (.fault fault) => .ok (.error (.malformed text fault.position fault.problem))
  | .error (.slip slip) => .error slip

end ByteReader

namespace ByteSignature

open ByteReader

/-! ## Types -/

/-- A type variable. -/
def typeVar : ByteReader TypeSig := do
  expect 'T' .expectedTypeVar
  let name ← identifier
  expect ';' .unclosedTypeVar
  return .var name

/-- A type argument, given a reader of references. -/
def argument (reference : ByteReader TypeSig) : ByteReader ArgSig := do
  if ← accept '*' then return .any
  else if ← accept '+' then return .extending (← reference)
  else if ← accept '-' then return .superOf (← reference)
  else return .exactly (← reference)

/-- An argument list, or no text at all. -/
def arguments (reference : ByteReader TypeSig) : ByteReader (List ArgSig) := do
  match ← peek with
  | some '<' =>
    if (← opened) = maxOpenArguments then fail .nestedTooDeeply
    else
      advance 1
      inList do
        let args ← ByteReader.repeatUntil (accept '>') (argument reference)
        if args.isEmpty then fail .noTypeArgs
        return args
  | _ => return []

/-- A class type. -/
def classTypeWith (reference : ByteReader TypeSig) : ByteReader ClassTypeSig := do
  expect 'L' .expectedClassType
  let first ← identifier
  let more ← whileNext '/' identifier
  let firstArgs ← arguments reference
  let nested ← whileNext '.' do
    let name ← identifier
    return .mk name (← arguments reference)
  expect ';' .unclosedClassType
  let names := first :: more
  return .mk names.dropLast (.mk (names.getLast (List.cons_ne_nil _ _)) firstArgs :: nested)

/-- Any type. -/
def anyTypeWith (reference : ByteReader TypeSig) : ByteReader TypeSig := do
  match (← peek).bind Primitive.ofLetter? with
  | some p =>
    advance 1
    return .base p
  | none => reference

/-- A class type, a type variable or an array. -/
def reference : ByteReader TypeSig :=
  onward fun reference => do
    match ← peek with
    | some 'L' => return .cls (← classTypeWith reference)
    | some 'T' => typeVar
    | some '[' =>
      let dims ← countNext '['
      if dims > maxDimensions then
        advance maxDimensions
        fail .tooManyDimensions
      else
        advance dims
        return (← anyTypeWith reference).arrayOf dims
    | _ => fail .expectedReference

def classType : ByteReader ClassTypeSig :=
  classTypeWith reference

def anyType : ByteReader TypeSig :=
  anyTypeWith reference

/-! ## Declarations -/

/-- A type parameter with its bounds. -/
def typeParam : ByteReader ParamSig := do
  let name ← identifier
  expect ':' .expectedClassBound
  let classBound ←
    match ← peek with
    | some ':' | none => pure none
    | _ => some <$> reference
  let interfaceBounds ← whileNext ':' reference
  return { name, classBound, interfaceBounds }

/-- A list of type parameters, or no text at all. -/
def typeParams : ByteReader (List ParamSig) := do
  if ← accept '<' then
    let params ← ByteReader.repeatUntil (accept '>') typeParam
    if params.isEmpty then fail .noTypeParams
    return params
  else return []

/-- Nothing may be left. -/
def endOfText : ByteReader Unit := do
  if ← atEnd then pure () else fail .trailingText

def classDeclaration : ByteReader ClassSig := do
  let params ← typeParams
  let superclass ← classType
  let interfaces ← ByteReader.repeatUntil atEnd classType
  return { params, superclass, interfaces }

def fieldDeclaration : ByteReader TypeSig := do
  let ty ← anyType
  endOfText
  return ty

/-- What a method may throw: a type variable or a class type. -/
def thrown : ByteReader TypeSig := do
  match ← peek with
  | some 'T' => typeVar
  | _ => return .cls (← classType)

def methodDeclaration : ByteReader MethodSig := do
  let params ← typeParams
  expect '(' .expectedParameters
  let parameters ← ByteReader.repeatUntil (accept ')') anyType
  let result ← do
    if ← accept 'V' then pure none else some <$> anyType
  let throws ← whileNext '^' thrown
  endOfText
  return { params, parameters, result, throws }

end ByteSignature

end JavaGenerics
