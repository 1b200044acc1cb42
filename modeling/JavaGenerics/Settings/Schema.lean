import JavaGenerics.Settings

/-!
# The schema of a configuration document

Editors can complete and check a configuration document if they are told what it may hold.  The
schema that tells them is derived from a short description of every setting.

* `Schema.Value` — the values that schemas are written in.
* `Schema.Property` — a setting: what it takes, what holds without it, and what it is for.
* `Settings.schema` — the schema of all settings.
-/

namespace JavaGenerics

namespace Schema

/-- A value in a schema. -/
inductive Value where
  | null
  | flag (value : Bool)
  | count (value : Nat)
  /-- A number that is written with one decimal. -/
  | decimal (value : Nat)
  | text (value : String)
  | list (items : List Value)
  | record (entries : List (String × Value))
deriving Inhabited, Repr

/-- What a setting takes. -/
inductive Shape where
  | flag
  | text
  | optionalText
  /-- A number of at least one. -/
  | limit
  /-- A table with a schema of its own. -/
  | table (name : String)

/-- A setting. -/
structure Property where
  name : String
  shape : Shape
  /-- What holds where a document is silent. -/
  default : Value
  description : Option String := none

/-- How a schema says what a setting takes. -/
def Shape.entries : Shape → List (String × Value)
  | .flag => [("type", .text "boolean")]
  | .text => [("type", .text "string")]
  | .optionalText => [("type", .list [.text "string", .text "null"])]
  | .limit => [("type", .text "integer"), ("format", .text "uint"), ("minimum", .decimal 1)]
  | .table name => [("allOf", .list [.record [("$ref", .text ("#/definitions/" ++ name))]])]

/-- How a schema describes something, if there is a description. -/
def describe : Option String → List (String × Value)
  | some text => [("description", .text text)]
  | none => []

/-- The schema of a setting. -/
def Property.schema (property : Property) : String × Value :=
  (property.name, .record
    (property.shape.entries ++ [("default", property.default)] ++ describe property.description))

/-- The schema of a table that takes the given settings and no others. -/
def table (description : Option String) (properties : List Property) : List (String × Value) :=
  describe description ++
    [("type", .text "object"), ("additionalProperties", .flag false),
      ("properties", .record (properties.map Property.schema))]

end Schema

open Schema (Property)

namespace LogSettings

/-- The settings of the log as a schema writes them. -/
def schemaValue (settings : LogSettings) : Schema.Value :=
  .record
    [ ("level", .text settings.level), ("json", .flag settings.json),
      ("stderr", .flag settings.stderr),
      ("file", (settings.file.map Schema.Value.text).getD .null) ]

def properties : List Property :=
  let default : LogSettings := {}
  [ { name := "level", shape := .text, default := .text default.level,
      description :=
        "A simple level (`info`, `debug`, ...) or a full `EnvFilter` directive string." },
    { name := "json", shape := .flag, default := .flag default.json,
      description := "Emit logs in JSON format." },
    { name := "stderr", shape := .flag, default := .flag default.stderr },
    { name := "file", shape := .optionalText, default := .null,
      description :=
        "Append logs to the given file. " ++
          "If the file cannot be opened, file logging is skipped." } ]

end LogSettings

namespace Limits

/-- Limits as a schema writes them. -/
def schemaValue (limits : Limits) : Schema.Value :=
  .record
    [ ("max_variable_chain", .count limits.maxVariableChain), ("max_depth", .count limits.maxDepth),
      ("use_cache", .flag limits.useCache) ]

def properties : List Property :=
  let default : Limits := {}
  [ { name := "max_variable_chain", shape := .limit, default := .count default.maxVariableChain,
      description :=
        "Maximum number of variable-to-variable hops followed when unrolling a binding." },
    { name := "max_depth", shape := .limit, default := .count default.maxDepth,
      description := "Maximum nesting of hierarchy walks and structural recursion." },
    { name := "use_cache", shape := .flag, default := .flag default.useCache,
      description := "Whether a resolver built with a [`crate::DescriptorCache`] consults it." } ]

end Limits

namespace Settings

def properties : List Property :=
  [ { name := "logging", shape := .table "LoggingConfig",
      default := LogSettings.schemaValue {} },
    { name := "resolver", shape := .table "ResolverOptions", default := Limits.schemaValue {},
      description := "Limits applied while walking hierarchies and unrolling variable chains." } ]

/-- **The schema of a configuration document.** -/
def schema : Schema.Value :=
  .record <|
    [ ("$schema", .text "http://json-schema.org/draft-07/schema#"), ("title", .text "BusConfig"),
      ("definitions", .record
        [ ("LoggingConfig", .record (Schema.table none LogSettings.properties)),
          ("ResolverOptions", .record
            (Schema.table (some "Limits and switches applied by [`crate::Resolver`].")
              Limits.properties)) ]) ] ++
    Schema.table none properties

end Settings

end JavaGenerics
