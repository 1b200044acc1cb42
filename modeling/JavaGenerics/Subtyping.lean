import JavaGenerics.Hierarchy
import JavaGenerics.Substitution

/-!
# Walking and assigning

Two questions about types cannot be told apart.  *As which instance of a class can a type be seen?*
is answered by walking up its supertypes and recording what their parameters stand for.  *Can a
value of one type be assigned to another?* walks up both sides to the class of the target and
compares the arguments found there; and the walk in turn, where it meets a variable or an array, has
to ask what is assignable.

* `Checker.walkWithin` — the walk, with `viewAs` on top.
* `Checker.assignWithin` — assignability under the variance rules of generics, with `assignable` on
  top.
* `Checker.containWithin` — containment of one type argument in a wildcard.

The three call one another with less fuel each time.  Their rules, which is where the decisions are,
are written apart from the recursion: a rule takes the question one level down as a function.
-/

namespace JavaGenerics

namespace Checker

/-- The question a walk asks one level down: subject, target, bindings so far. -/
abbrev WalkDown := Ty → ClassId → Bindings → Query (Option Bindings)

/-- The question about assignability one level down: source (none for the null type), target,
context. -/
abbrev AssignDown := Option Ty → Ty → Option Bindings → Query Bool

/-- The question about containment one level down: argument, bounds of the wildcard, context. -/
abbrev ContainDown := Ty → (upper lower : List Ty) → Option Bindings → Query Bool

/-! ## Rules of the walk -/

/-- Walks on from a class to the parent that leads to `target`, if there is one. -/
def walkParent (checker : Checker) (walk : WalkDown) (id target : ClassId) (map : Bindings) :
    Query (Option Bindings) := do
  match ← checker.parentToward id target with
  | some parent => walk parent target map
  | none => pure (some map)

/-- A class without arguments binds nothing itself.  A primitive walks as its box, unless it is to
arrive at a primitive, which has nothing to bind. -/
def walkClass (checker : Checker) (walk : WalkDown) (id target : ClassId) (map : Bindings) :
    Query (Option Bindings) := do
  if ← checker.classConverts id target then
    let known := checker.store.wellKnown
    match known.primitive? id with
    | some p =>
      if checker.isPrimitive target then pure (some .empty)
      else if known.boxes.get p = target then pure (some map)
      else checker.walkParent walk (known.boxes.get p) target map
    | none =>
      if id = target then pure (some map)
      else checker.walkParent walk id target map
  else pure none

/-- Binds each parameter to its argument, with the variables of the argument replaced as of
`before`.  An argument that is the parameter itself binds nothing. -/
def bindArguments (checker : Checker) (fuel : Nat) (before : Bindings) :
    List TypeVarId → List Ty → Bindings → Except DeclError Bindings
  | param :: params, arg :: args, map => do
    if arg.var? = some param then
      bindArguments checker fuel before params args map
    else
      let value ← checker.substWithin before fuel arg
      bindArguments checker fuel before params args (map.bind param value)
  | _, _, map => .ok map

/-- The bindings that the owner of an applied class brings along. -/
def walkOwner (walk : WalkDown) (owner : Option Ty) (map : Bindings) : Query Bindings :=
  match owner with
  | some (.applied raw args outer) => do
    return (← walk (.applied raw args outer) raw map).getD map
  | _ => pure map

/-- An applied class binds what its owner binds, then its own parameters, and walks on. -/
def walkApplied (checker : Checker) (walk : WalkDown) (fuel : Nat) (raw : ClassId)
    (args : List Ty) (owner : Option Ty) (target : ClassId) (map : Bindings) :
    Query (Option Bindings) := do
  if ← checker.classConverts raw target then
    let map ← walkOwner walk owner map
    let edges ← Query.edgesOf raw
    if edges.params.length ≠ args.length then
      Query.fail (.wrongArity (checker.store.qualifiedName? raw) edges.params.length args.length)
    else
      let map ← checker.bindArguments fuel map edges.params args map
      if raw = target then pure (some map)
      else checker.walkParent walk raw target map
  else pure none

/-- Walks through the first bound that is assignable to the target. -/
def walkBounds (walk : WalkDown) (assign : AssignDown) (target : ClassId) (map : Bindings) :
    List Ty → Query (Option Bindings)
  | [] => pure none
  | bound :: rest => do
    if ← assign (some bound) (.cls target) none then walk bound target map
    else walkBounds walk assign target map rest

/-- One step of the walk. -/
def walkStep (checker : Checker) (walk : WalkDown) (assign : AssignDown) (fuel : Nat)
    (subject : Ty) (target : ClassId) (map : Bindings) : Query (Option Bindings) :=
  match subject with
  | .cls id => checker.walkClass walk id target map
  | .applied raw args owner => checker.walkApplied walk fuel raw args owner target map
  | .var var => do
    let bounds ← checker.varBounds var
    walkBounds walk assign target map bounds
  | .wildcard upper _ => walkBounds walk assign target map (checker.upperBounds upper)
  | .array component =>
    if component.isWildcard then
      Query.fail (.wildcardComponent (checker.store.typeName? component))
    else do
      if ← assign (some (.array component)) (.cls target) none then pure (some map)
      else pure none

/-! ## Rules of assignability -/

/-- Whether some bound is assignable to the target. -/
def anyBound (assign : AssignDown) (target : Ty) (context : Option Bindings) :
    List Ty → Query Bool
  | [] => pure false
  | bound :: rest => do
    if ← assign (some bound) target context then pure true
    else anyBound assign target context rest

/-- A class takes its subclasses, applied or not, and every variable with a bound it takes.  Generic
arrays are no more than objects; other arrays are cloneable and serializable too. -/
def assignToClass (checker : Checker) (assign : AssignDown) (source : Option Ty)
    (target : ClassId) : Query Bool :=
  match source with
  | none => pure !checker.isPrimitive target
  | some (.cls id) => checker.classConverts id target
  | some (.applied raw _ _) => checker.classConverts raw target
  | some (.var var) => do
    let bounds ← checker.varBounds var
    anyBound assign (.cls target) none bounds
  | some (.array component) =>
    if component.isGenericComponent then pure (target == checker.store.wellKnown.object)
    else pure (checker.store.wellKnown.holdsArrays target)
  | some (.wildcard _ _) => pure false

/-- Whether a type, or a type it is nested in, passes `var` as the argument for `var` itself. -/
def passesThrough (var : TypeVarId) : Ty → Query Bool
  | .applied raw args owner => do
    let edges ← Query.edgesOf raw
    if (edges.params.zip args).any fun (param, arg) => param == var && arg.var? == some var then
      pure true
    else
      match owner with
      | some outer => passesThrough var outer
      | none => pure false
  | _ => pure false

/-- The argument that a walk from `subject` found for a parameter.  A chain that ends at a variable
counts only if `subject` passes that variable as its own argument, as `Box<T>` does inside `Box`. -/
def foundArgument (checker : Checker) (param : TypeVarId) (map : Bindings) (subject : Ty) :
    Query (Option Ty) := do
  let ownVariable (last : TypeVarId) : Query (Option Ty) := do
    if ← passesThrough last subject then pure (some (.var last)) else pure none
  match ← checker.follow param map with
  | .ended ty => pure (some ty)
  | .unbound => ownVariable param
  | .loose last => ownVariable last

/-- Compares arguments parameter by parameter.  An argument missing on either side, because that
side is raw or still generic, is accepted; else the two have to be equal, or the target's has to be
a wildcard that contains the source's. -/
def argumentsFit (checker : Checker) (contain : ContainDown) (source target : Ty)
    (sourceMap targetMap : Bindings) (context : Option Bindings) : List TypeVarId → Query Bool
  | [] => pure true
  | param :: rest => do
    match ← checker.foundArgument param targetMap target with
    | none => argumentsFit checker contain source target sourceMap targetMap context rest
    | some wanted =>
      match ← checker.foundArgument param sourceMap source with
      | none => argumentsFit checker contain source target sourceMap targetMap context rest
      | some given =>
        if given == wanted then
          argumentsFit checker contain source target sourceMap targetMap context rest
        else
          match wanted with
          | .wildcard upper lower =>
            if ← contain given upper lower context then
              argumentsFit checker contain source target sourceMap targetMap context rest
            else pure false
          | _ => pure false

/-- An applied class takes what can be seen as an instance of it with arguments that fit. -/
def assignToApplied (checker : Checker) (walk : WalkDown) (contain : ContainDown)
    (source : Option Ty) (target : Ty) (raw : ClassId) (context : Option Bindings) : Query Bool :=
  match source with
  | none => pure true
  | some (.array _) => pure false
  | some source => do
    match ← walk source raw .empty with
    | none => pure false
    | some sourceMap =>
      match ← walk target raw (context.getD .empty) with
      | none => pure false
      | some targetMap =>
        let edges ← Query.edgesOf raw
        checker.argumentsFit contain source target sourceMap targetMap context edges.params

/-- Whether the type is a primitive. -/
def isPrimitiveTy (checker : Checker) : Ty → Bool
  | .cls id => checker.isPrimitive id
  | _ => false

/-- Components that are no primitives are compared; a primitive component takes itself only. -/
def assignComponent (checker : Checker) (assign : AssignDown) (given wanted : Ty)
    (context : Option Bindings) : Query Bool :=
  if given.isWildcard then Query.fail (.wildcardComponent (checker.store.typeName? given))
  else if wanted.isWildcard then Query.fail (.wildcardComponent (checker.store.typeName? wanted))
  else if checker.isPrimitiveTy given || checker.isPrimitiveTy wanted then pure (given == wanted)
  else assign (some given) wanted context

/-- An array takes arrays with a component it takes, and whatever is bounded by such. -/
def assignToArray (checker : Checker) (assign : AssignDown) (source : Option Ty) (component : Ty)
    (context : Option Bindings) : Query Bool :=
  match source with
  | none => pure true
  | some (.array given) => checker.assignComponent assign given component context
  | some (.wildcard upper _) => anyBound assign (.array component) none (checker.upperBounds upper)
  | some (.var var) => do
    let bounds ← checker.varBounds var
    anyBound assign (.array component) none bounds
  | some (.cls _) => pure false
  | some (.applied _ _ _) => pure false

/-- A variable takes variables bounded by it, and whatever the type it is bound to takes. -/
def assignToVar (checker : Checker) (assign : AssignDown) (source : Option Ty)
    (target : TypeVarId) (context : Option Bindings) : Query Bool :=
  match source with
  | none => pure true
  | some source => do
    let bounded ←
      match source with
      | .var var => do
        let bounds ← checker.varBounds var
        anyBound assign (.var target) context bounds
      | _ => pure false
    if bounded then pure true
    else
      match context with
      | none => pure false
      | some map =>
        match ← checker.endOfChain target map with
        | some ended => assign (some source) ended context
        | none => pure false

/-- One step of assignability.  A wildcard has a meaning as a type argument only, and takes nothing
but itself. -/
def assignStep (checker : Checker) (walk : WalkDown) (assign : AssignDown) (contain : ContainDown)
    (source : Option Ty) (target : Ty) (context : Option Bindings) : Query Bool :=
  if source == some target then pure true
  else
    match target with
    | .cls id => checker.assignToClass assign source id
    | .applied raw _ _ => checker.assignToApplied walk contain source target raw context
    | .array component => checker.assignToArray assign source component context
    | .wildcard _ _ => pure false
    | .var var => checker.assignToVar assign source var context

/-! ## Rules of containment -/

/-- Assignability between lower bounds that may be absent.  An absent target takes an absent source
only. -/
def assignLower (assign : AssignDown) (source target : Option Ty) (context : Option Bindings) :
    Query Bool :=
  match target with
  | none => pure source.isNone
  | some target => assign source target context

/-- Whether every source is assignable to the target. -/
def allAssignTo (assign : AssignDown) (target : Ty) (context : Option Bindings) :
    List Ty → Query Bool
  | [] => pure true
  | source :: rest => do
    if ← assign (some source) target context then allAssignTo assign target context rest
    else pure false

/-- Whether every source is assignable to every upper bound. -/
def withinUpper (checker : Checker) (assign : AssignDown) (sources : List Ty)
    (context : Option Bindings) : List Ty → Query Bool
  | [] => pure true
  | bound :: rest => do
    let bound ← checker.instantiate context bound
    if ← allAssignTo assign bound context sources then
      withinUpper checker assign sources context rest
    else pure false

/-- Whether the source is assignable to every one of these lower bounds. -/
def assignToAllLower (assign : AssignDown) (source : Option Ty) (context : Option Bindings) :
    List (Option Ty) → Query Bool
  | [] => pure true
  | target :: rest => do
    if ← assignLower assign source target context then assignToAllLower assign source context rest
    else pure false

/-- Whether every lower bound is assignable to every one of the targets. -/
def withinLower (checker : Checker) (assign : AssignDown) (targets : List (Option Ty))
    (context : Option Bindings) : List (Option Ty) → Query Bool
  | [] => pure true
  | bound :: rest => do
    let bound ← checker.instantiate? context bound
    if ← assignToAllLower assign bound context targets then
      withinLower checker assign targets context rest
    else pure false

/-- A wildcard contains an argument that lies within all its bounds.  The bounds of an argument that
is a wildcard itself stand for it. -/
def containStep (checker : Checker) (assign : AssignDown) (given : Ty) (upper lower : List Ty)
    (context : Option Bindings) : Query Bool := do
  match given with
  | .wildcard givenUpper givenLower =>
    if givenUpper == upper && givenLower == lower then pure true
    else if ← checker.withinUpper assign (checker.upperBounds givenUpper) context
        (checker.upperBounds upper) then
      checker.withinLower assign (lowerBounds givenLower) context (lowerBounds lower)
    else pure false
  | _ =>
    if ← checker.withinUpper assign [given] context (checker.upperBounds upper) then
      checker.withinLower assign [some given] context (lowerBounds lower)
    else pure false

/-! ## The recursion -/

mutual

/-- Walks from `subject` up to `target` and records what the variables on the way are bound to. -/
def walkWithin (checker : Checker) : (fuel : Nat) → WalkDown
  | 0 => fun _ _ _ => Query.fail checker.tooDeep
  | fuel + 1 => fun subject target map =>
    checker.walkStep (walkWithin checker fuel) (assignWithin checker fuel) fuel subject target map

/-- Whether `source` can be assigned to `target`. -/
def assignWithin (checker : Checker) : (fuel : Nat) → AssignDown
  | 0 => fun _ _ _ => Query.fail checker.tooDeep
  | fuel + 1 => fun source target context =>
    checker.assignStep (walkWithin checker fuel) (assignWithin checker fuel)
      (containWithin checker fuel) source target context

/-- Whether a wildcard contains an argument.  The level itself is not checked against the limit: the
questions it asks are. -/
def containWithin (checker : Checker) : (fuel : Nat) → ContainDown
  | 0 => fun given upper lower context =>
    checker.containStep (fun _ _ _ => Query.fail checker.tooDeep) given upper lower context
  | fuel + 1 => fun given upper lower context =>
    checker.containStep (assignWithin checker fuel) given upper lower context

end

/-! ## Questions -/

/-- **As which instance of `target` can `subject` be seen?**  Extends the inherited bindings; no
answer means that the two are unrelated. -/
def viewAs (checker : Checker) (subject : Ty) (target : ClassId)
    (inherited : Bindings) : Query (Option Bindings) :=
  checker.walkWithin checker.fuel subject target inherited

/-- **Can a value of type `source` be assigned to `target`?**  Without a source the question is
about the null type.  The context binds variables that occur in `target`. -/
def assignable (checker : Checker) (source : Option Ty) (target : Ty)
    (context : Option Bindings) : Query Bool :=
  checker.assignWithin checker.fuel source target context

end Checker

end JavaGenerics
