import JavaGenerics.Toml.Scalar

/-!
# Documents

A document is a list of lines: a line gives a value to a key, or opens a table that the following
lines fill.  The same table may be mentioned in several ways, and some combinations of these are
refused.

* `Toml.value` — a value, where arrays and inline tables may be nested up to a limit.
* `Toml.Statement` — what a line says.
* `Toml.Item` — a table under construction.  It remembers how each table came about, because **a
  table that was opened by its own header is never opened again, and dotted keys extend none but
  tables made by dotted keys.**
* `Toml.parse?` — the table that a document describes.
-/

namespace JavaGenerics.Toml

open Scanner

/-! ## Tables under construction -/

/-- How a table came about. -/
inductive Origin where
  /-- By the header of a table inside of it. -/
  | implied
  /-- By a dotted key. -/
  | dotted
  /-- By a header of its own. -/
  | header
deriving DecidableEq, Repr

/-- What a key stands for while a document is being read. -/
inductive Item where
  | value (value : Value)
  | table (origin : Origin) (entries : List (String × Item))
  /-- An array of tables, of which the last one can still be filled. -/
  | tables (last : List (String × Item)) (before : List (List (String × Item)))

/-- The entries of a table under construction. -/
abbrev Entries := List (String × Item)

/-- Puts an item at a key, in place of what was there before. -/
def putItem (key : String) (item : Item) : Entries → Entries
  | [] => [(key, item)]
  | (other, old) :: rest =>
    if other = key then (key, item) :: rest else (other, old) :: putItem key item rest

/-- Changes the table at the end of a path.  Tables that do not exist yet come about on the way; an
array of tables stands for its last element.  A dotted key does not pass a table that has a header
of its own. -/
def changeAt (dotted : Bool) (change : Origin → Entries → Option Entries) :
    (path : List String) → Origin → Entries → Option Entries
  | [], origin, entries => change origin entries
  | key :: path, _, entries =>
    match entries.lookup key with
    | none => do
      let origin := if dotted then Origin.dotted else Origin.implied
      let inner ← changeAt dotted change path origin []
      return putItem key (.table origin inner) entries
    | some (.table origin inner) =>
      if dotted && origin == .header then none
      else do
        let inner ← changeAt dotted change path origin inner
        return putItem key (.table origin inner) entries
    | some (.tables last before) => do
      let last ← changeAt dotted change path .header last
      return putItem key (.tables last before) entries
    | some (.value _) => none

/-- Adds an entry for a key that has none. -/
def addEntry (key : String) (item : Item) (entries : Entries) : Option Entries :=
  match entries.lookup key with
  | none => some (putItem key item entries)
  | some _ => none

/-- Gives a value to a key inside a table.  The table that a dotted key ends in has to have come
about by a dotted key. -/
def assign (path : List String) (value : Value) (origin : Origin) (entries : Entries) :
    Option Entries :=
  match path.reverse with
  | [] => none
  | [key] => if origin = .dotted then none else addEntry key (.value value) entries
  | key :: above =>
    changeAt true (fun origin entries =>
      if origin = .dotted then addEntry key (.value value) entries else none)
      above.reverse origin entries

/-- Opens a table.  One that was only implied so far is opened as it is. -/
def openTable (path : List String) (entries : Entries) : Option Entries :=
  match path.reverse with
  | [] => none
  | key :: above =>
    changeAt false (fun _ entries =>
      match entries.lookup key with
      | none => some (putItem key (.table .header []) entries)
      | some (.table .implied inner) => some (putItem key (.table .header inner) entries)
      | some _ => none)
      above.reverse .header entries

/-- Opens a new table at the end of an array of tables. -/
def openElement (path : List String) (entries : Entries) : Option Entries :=
  match path.reverse with
  | [] => none
  | key :: above =>
    changeAt false (fun _ entries =>
      match entries.lookup key with
      | none => some (putItem key (.tables [] []) entries)
      | some (.tables last before) => some (putItem key (.tables [] (before ++ [last])) entries)
      | some _ => none)
      above.reverse .header entries

mutual

/-- The value an item has become. -/
def Item.toValue : Item → Value
  | .value value => value
  | .table _ entries => .table (toValues entries)
  | .tables last before => .array (tableValues before ++ [.table (toValues last)])

def toValues : List (String × Item) → List (String × Value)
  | [] => []
  | (key, item) :: rest => (key, item.toValue) :: toValues rest

def tableValues : List (List (String × Item)) → List Value
  | [] => []
  | entries :: rest => .table (toValues entries) :: tableValues rest

end

/-! ## Values -/

/-- Assigns every pair in turn to an inline table. -/
def assignAll : List (List String × Value) → Entries → Option Entries
  | [], entries => some entries
  | (path, value) :: rest, entries => do assignAll rest (← assign path value .header entries)

/-- A value without parts. -/
def scalar : Scanner Value :=
  orElse (.string <$> text) <| orElse (do literal "true"; return .boolean true) <|
    orElse (do literal "false"; return .boolean false) <| orElse dateTime <| orElse float integer

/-- An array, given a scanner of its items.  A comma may follow the last one. -/
def arrayOf (item : Scanner Value) : Scanner Value := do
  char '['
  let spacedItem : Scanner Value := do
    blanks
    let value ← item
    blanks
    return value
  let items ← orElse
    (do
      let items ← sepBy spacedItem (char ',')
      let _ ← optionally (char ',')
      return items)
    (pure [])
  blanks
  char ']'
  return .array items

/-- A key and its value. -/
def keyValue (item : Scanner Value) : Scanner (List String × Value) := do
  let path ← key
  spaces
  char '='
  spaces
  let value ← item
  return (path, value)

/-- A table on one line, given a scanner of its values. -/
def inlineTable (item : Scanner Value) : Scanner Value := do
  char '\x7b'
  spaces
  let pairs ← optionally (sepBy (do let pair ← keyValue item; spaces; return pair)
    (do char ','; spaces))
  char '\x7d'
  match assignAll (pairs.getD []) [] with
  | some entries => return .table (toValues entries)
  | none => refuse

/-- A value, in which arrays and inline tables may be nested to the given depth. -/
def valueWithin : (depth : Nat) → Scanner Value
  | 0 => scalar
  | depth + 1 => do
    match ← peek with
    | some '[' => arrayOf (valueWithin depth)
    | some '\x7b' => inlineTable (valueWithin depth)
    | _ => scalar

/-- A value. -/
def value : Scanner Value :=
  valueWithin maxNesting

/-! ## Lines -/

/-- What a line says. -/
inductive Statement where
  | assign (path : List String) (value : Value)
  | openTable (path : List String)
  | openElement (path : List String)

/-- A key between blanks. -/
def spacedKey : Scanner (List String) := do
  spaces
  let path ← key
  spaces
  return path

/-- A header or an assignment. -/
def statement : Scanner Statement := do
  match (← rest).take 2 with
  | ['[', '['] =>
    literal "[["
    let path ← spacedKey
    literal "]]"
    return .openElement path
  | '[' :: _ =>
    char '['
    let path ← spacedKey
    char ']'
    return .openTable path
  | _ =>
    let (path, value) ← keyValue value
    return .assign path value

/-- A line up to its end: perhaps a statement, perhaps a comment. -/
def line : Scanner (Option Statement) := do
  spaces
  let said ←
    match ← peek with
    | none | some '#' | some '\n' | some '\r' => pure none
    | _ => some <$> statement
  spaces
  let _ ← optionally comment
  return said

/-- The statements of a document of at most `count` lines. -/
def linesWithin : (count : Nat) → Scanner (List Statement)
  | 0 => refuse
  | count + 1 => do
    let said ← line
    match ← peek with
    | none => return said.toList
    | some _ =>
      newline
      return said.toList ++ (← linesWithin count)

/-! ## Documents -/

/-- Carries out statements, the assignments among them inside the table opened last. -/
def perform : List Statement → (current : List String) → Entries → Option Entries
  | [], _, entries => some entries
  | .openTable path :: rest, _, entries => do perform rest path (← openTable path entries)
  | .openElement path :: rest, _, entries => do perform rest path (← openElement path entries)
  | .assign path value :: rest, current, entries => do
    perform rest current (← changeAt false (assign path value) current .header entries)

/-- **The table that a document describes.** -/
def parse? (document : String) : Option (List (String × Value)) := do
  let chars := match document.toList with
    | '\ufeff' :: chars => chars
    | chars => chars
  let statements ← (linesWithin (chars.length + 1)).scan? chars
  return toValues (← perform statements [] [])

end JavaGenerics.Toml
