/-!
# Scanning text

Documents are read from left to right by scanners, which take something off the front of a text or
do not apply at all.  What is wrong with a document is not told in detail, so a scanner that does
not apply says no more than that.

* `Toml.Scanner` — scanners, with `orElse` for alternatives.
* `Scanner.many`, `Scanner.sepBy` — repetition, bounded by the characters that are left.
-/

namespace JavaGenerics.Toml

/-- Takes an `α` off the front of a text, or does not apply. -/
abbrev Scanner := StateT (List Char) Option

namespace Scanner

variable {α : Type}

/-- Does not apply. -/
def refuse : Scanner α :=
  fun _ => none

/-- What is left, all of it, and left where it is. -/
def rest : Scanner (List Char) :=
  fun text => some (text, text)

/-- The next character, left where it is. -/
def peek : Scanner (Option Char) :=
  fun text => some (text.head?, text)

/-- Takes a character with the given property. -/
def satisfy (p : Char → Bool) : Scanner Char
  | c :: text => if p c then some (c, text) else none
  | [] => none

/-- Takes the character `c`. -/
def char (c : Char) : Scanner Unit :=
  (fun _ => ()) <$> satisfy (· == c)

/-- Takes the given characters. -/
def literal (word : String) : Scanner Unit :=
  fun text => (word.toList.isPrefixOf? text).map fun text => ((), text)

/-- Takes characters as long as they have the given property. -/
def takeWhile (p : Char → Bool) : Scanner (List Char) :=
  fun text => some (text.takeWhile p, text.dropWhile p)

/-- Takes exactly `count` characters with the given property. -/
def exactly (count : Nat) (p : Char → Bool) : Scanner (List Char) := fun text =>
  let taken := text.take count
  if taken.length = count ∧ taken.all p then some (taken, text.drop count) else none

/-- The first scanner that applies, tried at the same place. -/
def orElse (first second : Scanner α) : Scanner α :=
  fun text => (first text).or (second text)

/-- Applies a scanner if it can be applied. -/
def optionally (scanner : Scanner α) : Scanner (Option α) :=
  orElse (some <$> scanner) (pure none)

/-- Applies a scanner in a row, at most once for each character of `bound`. -/
def manyWithin (scanner : Scanner α) : (bound : List Char) → Scanner (List α)
  | [] => pure []
  | _ :: bound => do
    match ← optionally scanner with
    | some head => return head :: (← manyWithin scanner bound)
    | none => return []

/-- Applies a scanner, which takes at least one character, as often as it can be applied. -/
def many (scanner : Scanner α) : Scanner (List α) :=
  fun text => manyWithin scanner text text

/-- Applies a scanner at least once, and again after each separator. -/
def sepBy (scanner : Scanner α) (separator : Scanner Unit) : Scanner (List α) := do
  let head ← scanner
  let tail ← many do
    separator
    scanner
  return head :: tail

/-- Applies a scanner to a whole text. -/
def scan? (scanner : Scanner α) (text : List Char) : Option α :=
  match scanner text with
  | some (result, []) => some result
  | _ => none

end Scanner

end JavaGenerics.Toml
