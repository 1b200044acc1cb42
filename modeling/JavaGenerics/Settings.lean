import JavaGenerics.Checker
import JavaGenerics.Toml.Document

/-!
# Settings

The limits of a checker and what is written to the log can be set in a configuration document.

* `Settings` — what can be set, with the values that hold where a document is silent.
* `Settings.load` — reads a document.  **A key that means nothing is refused**, and so is a value of
  another type than its key takes.
* `Settings.validate` — refuses limits under which no question could be answered.
* `SettingsError` — what can be wrong, with its wording.
-/

namespace JavaGenerics

/-- What is written to the log, and where. -/
structure LogSettings where
  /-- A level, or directives for several targets. -/
  level : String := "info"
  /-- Whether entries are written as JSON. -/
  json : Bool := false
  /-- Whether entries go to standard error. -/
  stderr : Bool := true
  /-- The file that entries are appended to. -/
  file : Option String := none
deriving DecidableEq, Repr, Inhabited

/-- Everything that can be set. -/
structure Settings where
  logging : LogSettings := {}
  limits : Limits := {}
deriving DecidableEq, Repr, Inhabited

/-- Why there are no settings. -/
inductive SettingsError where
  /-- There is no such file. -/
  | unreadable (path : String)
  /-- The document is not well formed, or does not say what can be set. -/
  | malformed
  /-- Walks may not go anywhere. -/
  | noDepth
  /-- Chains of variables may not be followed. -/
  | noVariableChain
deriving DecidableEq, Repr

/-- The wording of an error about a limit.  Other errors have no wording of their own. -/
def SettingsError.message? : SettingsError → Option String
  | .unreadable _ => none
  | .malformed => none
  | .noDepth => some "invalid config: resolver.max_depth must be at least 1"
  | .noVariableChain => some "invalid config: resolver.max_variable_chain must be at least 1"

/-! ## Reading values -/

namespace Toml.Value

def text? : Value → Option String
  | .string text => some text
  | _ => none

def flag? : Value → Option Bool
  | .boolean flag => some flag
  | _ => none

/-- A number that is not negative. -/
def count? : Value → Option Nat
  | .integer n => if 0 ≤ n then some n.toNat else none
  | _ => none

/-- Reads the fields of a record from a value.  A table gives values to fields by name, and may not
mention others; an array gives values to the first fields in order.  Fields without a value are
absent. -/
def fields? (names : List String) : Value → Option (String → Option Value)
  | .table entries =>
    if entries.all fun entry => names.contains entry.1 then some fun name => entries.lookup name
    else none
  | .array items => some fun name => (names.zip items).lookup name
  | _ => none

/-- Reads a value if there is one, and leaves the default in place if there is none. -/
def readOr {α : Type} (default : α) (read : Value → Option α) : Option Value → Option α
  | some value => read value
  | none => some default

end Toml.Value

open Toml (Value)

open Toml.Value

namespace Limits

/-- The names of the limits, in order. -/
def fieldNames : List String :=
  ["max_variable_chain", "max_depth", "use_cache"]

/-- Reads limits. -/
def ofValue? (value : Value) : Option Limits := do
  let field ← value.fields? fieldNames
  let default : Limits := {}
  return {
    maxVariableChain := ← readOr default.maxVariableChain count? (field "max_variable_chain")
    maxDepth := ← readOr default.maxDepth count? (field "max_depth")
    useCache := ← readOr default.useCache flag? (field "use_cache") }

end Limits

namespace LogSettings

/-- The names of the settings of the log, in order. -/
def fieldNames : List String :=
  ["level", "json", "stderr", "file"]

/-- Reads the settings of the log. -/
def ofValue? (value : Value) : Option LogSettings := do
  let field ← value.fields? fieldNames
  let default : LogSettings := {}
  return {
    level := ← readOr default.level text? (field "level")
    json := ← readOr default.json flag? (field "json")
    stderr := ← readOr default.stderr flag? (field "stderr")
    file := ← readOr default.file (fun value => value.text?.map some) (field "file") }

end LogSettings

/-! ## Settings -/

namespace Settings

/-- The names of the tables of a document, in order. -/
def fieldNames : List String :=
  ["logging", "resolver"]

/-- Reads settings. -/
def ofValue? (value : Value) : Option Settings := do
  let field ← value.fields? fieldNames
  return {
    logging := ← readOr {} LogSettings.ofValue? (field "logging")
    limits := ← readOr {} Limits.ofValue? (field "resolver") }

/-- Refuses limits under which no question could be answered. -/
def validate (settings : Settings) : Except SettingsError Unit :=
  if settings.limits.maxDepth = 0 then .error .noDepth
  else if settings.limits.maxVariableChain = 0 then .error .noVariableChain
  else .ok ()

/-- **Reads a configuration document.** -/
def load (document : String) : Except SettingsError Settings :=
  match (Toml.parse? document).bind fun entries => ofValue? (.table entries) with
  | none => .error .malformed
  | some settings => settings.validate.map fun _ => settings

/-- Reads the configuration document in a file, given the content of the file if it has any. -/
def loadFile (path : String) (content : Option String) : Except SettingsError Settings :=
  match content with
  | none => .error (.unreadable path)
  | some document => load document

end Settings

end JavaGenerics
