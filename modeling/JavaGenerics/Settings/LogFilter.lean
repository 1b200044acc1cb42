import JavaGenerics.Settings
import JavaGenerics.Text.Alphanumeric
import JavaGenerics.Text.Blank
import JavaGenerics.Text.Numeral

/-!
# What is written to the log

A log filter is a list of directives, each with the least severe level that is written for a target
or for all of them.  It is put together from the settings and from the environment, where either may
turn out not to be a filter.

* `LogDirective.parse?` — one directive: a level, a target, or a target with a level.
* `LogFilter` — directives in order of how much they say, one for each target.
* `LogSettings.filter` — the filter that is in force.  **What the environment says is added to the
  settings; if the two do not go together it replaces them, and what cannot be read is passed
  over.**
-/

namespace JavaGenerics

/-- How much is written, from nothing to everything. -/
inductive LogLevel where
  | off
  | error
  | warn
  | info
  | debug
  | trace
deriving DecidableEq, Repr, Inhabited

namespace LogLevel

def all : List LogLevel :=
  [off, error, warn, info, debug, trace]

def name : LogLevel → String
  | off => "off"
  | error => "error"
  | warn => "warn"
  | info => "info"
  | debug => "debug"
  | trace => "trace"

/-- The level with the given name in any case, or with the given position among all levels. -/
def parse? (text : List Char) : Option LogLevel :=
  let digits := match text with
    | '+' :: digits => digits
    | digits => digits
  if !digits.isEmpty && digits.all Char.isDigit then
    all[number 10 digits]?
  else
    all.find? fun level => level.name.toList == text.map Char.toLower

end LogLevel

/-- The level for a target, or for every target without a directive of its own. -/
structure LogDirective where
  target : Option String
  level : LogLevel
deriving DecidableEq, Repr

namespace LogDirective

/-- Whether a directive may start with this character.  Targets are paths of identifiers. -/
def startsTarget (c : Char) : Bool :=
  isAlphanumeric c || c == '-' || c == ':' || c == '_'

/-- Reads a directive.  A target without a level is for every level.  Blanks at the ends are passed
over only to see how the directive begins.  They stay part of a target that stands alone, and where
a level is told there are none before the target. -/
def parse? (text : List Char) : Option LogDirective :=
  if text.contains '[' || !(trimBlank text).head?.any startsTarget then none
  else
    let name := text.takeWhile (· != '=')
    match text.dropWhile (· != '=') with
    | [] =>
      match LogLevel.parse? name with
      | some level => some ⟨none, level⟩
      | none => some ⟨some (String.ofList name), .trace⟩
    | _ :: level =>
      if name.head?.any isBlank then none
      else if level.isEmpty then some ⟨some (String.ofList name), .trace⟩
      else (LogLevel.parse? level).map fun level => ⟨some (String.ofList name), level⟩

/-- Whether one directive is listed before another: the longer target first, and of equally long
ones the later in the alphabet. -/
def precedes (first second : LogDirective) : Bool :=
  match first.target, second.target with
  | some a, some b => b.utf8ByteSize < a.utf8ByteSize || (a.utf8ByteSize == b.utf8ByteSize && b < a)
  | some _, none => true
  | none, _ => false

/-- How a directive is written. -/
def render (directive : LogDirective) : String :=
  match directive.target with
  | some target => target ++ "=" ++ directive.level.name
  | none => directive.level.name

end LogDirective

/-- Directives in order, one for each target. -/
structure LogFilter where
  directives : List LogDirective
deriving DecidableEq, Repr

namespace LogFilter

/-- Puts a directive at its place, over an older one for the same target. -/
def insertDirective (directive : LogDirective) : List LogDirective → List LogDirective
  | [] => [directive]
  | other :: rest =>
    if directive.target = other.target then directive :: rest
    else if directive.precedes other then directive :: other :: rest
    else other :: insertDirective directive rest

/-- The filter of some directives, the later ones winning. -/
def ofDirectives (directives : List LogDirective) : LogFilter :=
  ⟨directives.foldl (fun listed directive => insertDirective directive listed) []⟩

/-- Splits at every comma. -/
def splitCommas : List Char → List (List Char)
  | [] => [[]]
  | c :: rest =>
    if c = ',' then [] :: splitCommas rest
    else
      match splitCommas rest with
      | part :: parts => (c :: part) :: parts
      | [] => [[c]]

/-- Reads directives separated by commas.  One that cannot be read spoils them all. -/
def parse? (text : List Char) : Option LogFilter :=
  (((splitCommas text).filter fun part => !part.isEmpty).mapM LogDirective.parse?).map ofDirectives

/-- How a filter is written. -/
def render (filter : LogFilter) : String :=
  ",".intercalate (filter.directives.map LogDirective.render)

end LogFilter

/-- A level as it is set, in plain form: trimmed, in lower case if it is one of the common names,
and `info` if nothing is left. -/
def normalLevel (level : String) : List Char :=
  let trimmed := trimBlank level.toList
  if trimmed.isEmpty then LogLevel.info.name.toList
  else
    let lower := trimmed.map Char.toLower
    if lower == "warning".toList then LogLevel.warn.name.toList
    else if (LogLevel.all.filter (· != .off)).any fun level => level.name.toList == lower then lower
    else trimmed

namespace LogSettings

/-- The filter that the settings ask for, or the plain one if they cannot be read. -/
def ownFilter (settings : LogSettings) : LogFilter :=
  (LogFilter.parse? (normalLevel settings.level)).getD ⟨[⟨none, .info⟩]⟩

/-- **The filter in force**, given what the environment asks for. -/
def filter (settings : LogSettings) (environment : Option String) : LogFilter :=
  match trimBlank (environment.getD "").toList with
  | [] => settings.ownFilter
  | asked =>
    match LogFilter.parse? (normalLevel settings.level ++ ',' :: asked) with
    | some filter => filter
    | none => (LogFilter.parse? asked).getD settings.ownFilter

end LogSettings

end JavaGenerics
