/-!
# Values of a configuration document

* `Toml.Value` — what a key can stand for.
* `Toml.maxNesting` — how deep documents may go.
-/

namespace JavaGenerics.Toml

/-- A value in a document.  Of a number that is no integer, and of a date, no more is kept than that
it is one, for nothing can be set to them. -/
inductive Value where
  | string (text : String)
  | integer (value : Int)
  | float
  | boolean (value : Bool)
  | dateTime
  | array (items : List Value)
  | table (entries : List (String × Value))
deriving Inhabited, Repr

/-- Most arrays and inline tables that are open at a time, and most parts of one key. -/
def maxNesting : Nat := 79

end JavaGenerics.Toml
