import JavaGenerics.Signature.Problem

/-!
# Reading text from left to right

A reader takes characters off the front of a text.  It knows how far it has come, in bytes, because
that is how positions are reported.

* `Cursor` — what is left of the text, and how much of it lies behind.
* `Reader` — a reader: a result and the place after it, or a problem and its place.
* `Reader.identifier` — the longest run of characters that delimit nothing.
* `Reader.repeatUntil`, `Reader.whileNext` — repetition.  Each round takes at least one character,
  so the characters that are left bound the number of rounds.
-/

namespace JavaGenerics

/-- How many bytes of UTF-8 characters take. -/
def utf8Length : List Char → Nat
  | [] => 0
  | c :: rest => c.utf8Size + utf8Length rest

/-- A place in a text. -/
structure Cursor where
  /-- What follows. -/
  rest : List Char
  /-- How many bytes of UTF-8 lie behind. -/
  offset : Nat := 0
deriving DecidableEq, Repr

/-- The place after the next `count` characters. -/
def Cursor.skip (cursor : Cursor) (count : Nat) : Cursor where
  rest := cursor.rest.drop count
  offset := cursor.offset + utf8Length (cursor.rest.take count)

/-- A problem and its place. -/
structure Fault where
  position : Nat
  problem : Problem
deriving DecidableEq, Repr

/-- Reads an `α` off the front of a text. -/
abbrev Reader := StateT Cursor (Except Fault)

namespace Reader

variable {α : Type}

/-! ## Single characters -/

/-- Reports a problem at the current place. -/
def fail (problem : Problem) : Reader α :=
  fun cursor => .error ⟨cursor.offset, problem⟩

/-- The next character, which is left where it is. -/
def peek : Reader (Option Char) :=
  fun cursor => .ok (cursor.rest.head?, cursor)

/-- Whether nothing is left. -/
def atEnd : Reader Bool :=
  fun cursor => .ok (cursor.rest.isEmpty, cursor)

/-- Takes the next `count` characters. -/
def skip (count : Nat) : Reader Unit :=
  fun cursor => .ok ((), cursor.skip count)

/-- Takes the next character if it is `c`, and tells whether it was. -/
def accept (c : Char) : Reader Bool :=
  fun cursor =>
    if cursor.rest.head? = some c then .ok (true, cursor.skip 1) else .ok (false, cursor)

/-- Takes the next character, which has to be `c`. -/
def expect (c : Char) (problem : Problem) : Reader Unit := do
  if ← accept c then pure () else fail problem

/-! ## Runs of characters -/

/-- The characters that end an identifier. -/
def isDelimiter (c : Char) : Bool :=
  ['.', ';', '[', '/', '<', '>', ':'].contains c

/-- Takes the longest identifier, which has to have a character. -/
def identifier : Reader String := fun cursor =>
  let name := cursor.rest.takeWhile fun c => !isDelimiter c
  if name.isEmpty then .error ⟨cursor.offset, .expectedIdentifier⟩
  else .ok (String.ofList name, cursor.skip name.length)

/-- The number of times that `c` comes next in a row. -/
def countNext (c : Char) : Reader Nat :=
  fun cursor => .ok ((cursor.rest.takeWhile (· == c)).length, cursor)

/-! ## Repetition -/

/-- Reads items until `stop` says that they are at an end, at most one for each character of `bound`
and one more, which is the one that tells what is missing at the end of a text. -/
def untilWithin (stop : Reader Bool) (item : Reader α) : (bound : List Char) → Reader (List α)
  | [] => do
    if ← stop then pure [] else return [← item]
  | _ :: bound => do
    if ← stop then pure []
    else
      let head ← item
      let tail ← untilWithin stop item bound
      pure (head :: tail)

/-- Reads items until `stop` says that they are at an end. -/
def repeatUntil (stop : Reader Bool) (item : Reader α) : Reader (List α) :=
  fun cursor => untilWithin stop item cursor.rest cursor

/-- Reads one item after each `c` that comes next. -/
def whileNext (c : Char) (item : Reader α) : Reader (List α) :=
  Reader.repeatUntil (do return !(← accept c)) item

/-- Reads a whole text. -/
def read (reader : Reader α) (text : String) : Except SignatureError α :=
  match reader { rest := text.toList } with
  | .ok (result, _) => .ok result
  | .error fault => .error (.malformed text fault.position fault.problem)

end Reader

end JavaGenerics
