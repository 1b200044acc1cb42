import JavaGenerics.Checker

/-!
# The hierarchy of classes

Arguments aside, one class is a subtype of another if supertype edges lead from it there.
Primitives take part through their boxes.

* `Checker.reaches` — breadth-first search along supertype edges, for so many steps at most.  **A
  search that runs out of steps has not answered**, which is an outcome of its own.
* `Checker.leadsTo` — reachability along supertype edges, by as many steps as there are classes.
* `Checker.classConverts` — the same with boxing, unboxing and widening of primitives.
* `Checker.parentToward` — the declared supertype to follow on the way to a given class.
-/

namespace JavaGenerics

namespace Checker

/-! ## Reachability -/

/-- The class behind a supertype that `id` declares. -/
def supertypeClass (checker : Checker) (id : ClassId) (edge : Ty) : Except DeclError ClassId :=
  match edge.rawClass? with
  | some next => .ok next
  | none => .error
      (.badSupertype (checker.store.qualifiedName? id) (checker.store.typeName? edge))

/-- Looks for `target` among the supertypes that `current` declares.  Short of it, the classes not
seen before are put in line. -/
def scanSupertypes (checker : Checker) (current target : ClassId) :
    List Ty → (queue seen : List ClassId) → Except DeclError (Option (List ClassId × List ClassId))
  | [], queue, seen => .ok (some (queue, seen))
  | edge :: rest, queue, seen => do
    let next ← checker.supertypeClass current edge
    if next = target then
      return none
    if seen.contains next then
      scanSupertypes checker current target rest queue seen
    else
      scanSupertypes checker current target rest (queue ++ [next]) (next :: seen)

/-- Breadth-first search for `target` from the classes in line, one class in a step.  There is no
answer where the steps run out. -/
def reaches (checker : Checker) (target : ClassId) :
    (steps : Nat) → (queue seen : List ClassId) → Query (Option Bool)
  | 0, _, _ => pure none
  | _ + 1, [], _ => pure (some false)
  | steps + 1, current :: queue, seen => do
    let edges ← Query.edgesOf current
    match ← checker.scanSupertypes current target edges.supertypes queue seen with
    | none => pure (some true)
    | some (queue, seen) => reaches checker target steps queue seen

/-- Whether supertype edges lead from `source` to `target`.  `Object` is a supertype of every class
and interface, whatever they declare.  Every class is entered at most once, so the steps do not run
out: there is one for each known class, and one for a class that is not known. -/
def leadsTo (checker : Checker) (source target : ClassId) : Query Bool :=
  if source = target then pure true
  else if target = checker.store.wellKnown.object then pure !checker.isPrimitive source
  else (·.getD false) <$> checker.reaches target (checker.store.size + 1) [source] [source]

/-- Whether values of one class can be assigned to another, arguments aside: a primitive widens or
is boxed, a box is unboxed and then perhaps widened, and a class is a subclass. -/
def classConverts (checker : Checker) (source target : ClassId) : Query Bool :=
  let known := checker.store.wellKnown
  if source = target then pure true
  else
    match known.primitive? source, known.primitive? target with
    | some p, some q => pure (p.widensTo q)
    | some p, none => checker.leadsTo (known.boxes.get p) target
    | none, some q =>
      match known.unboxed? source with
      | some p => pure (p == q || p.widensTo q)
      | none => pure false
    | none, none => checker.leadsTo source target

/-! ## The parent to follow -/

/-- Among the interfaces that `id` declares, one that leads to `target`: the first such, replaced by
every later one that it is assignable to. -/
def interfaceToward (checker : Checker) (id target : ClassId) :
    List Ty → (chosen : Option (Ty × ClassId)) → Query (Option Ty)
  | [], chosen => pure (chosen.map Prod.fst)
  | edge :: rest, chosen => do
    let next ← checker.supertypeClass id edge
    if ← checker.classConverts next target then
      match chosen with
      | none => interfaceToward checker id target rest (some (edge, next))
      | some (_, old) =>
        if ← checker.classConverts old next then
          interfaceToward checker id target rest (some (edge, next))
        else
          interfaceToward checker id target rest chosen
    else
      interfaceToward checker id target rest chosen

/-- The declared superclass, which has to be nominal. -/
def superclassEdge (checker : Checker) (id : ClassId) (edges : Edges) :
    Except DeclError (Option Ty) :=
  match edges.superclass with
  | none => .ok none
  | some edge => (checker.supertypeClass id edge).map fun _ => some edge

/-- The declared supertype of `id` to follow toward `target`.  Toward an interface that is the
closest declared interface; failing that, and toward a class, it is the superclass, which interfaces
and `Object` do not have. -/
def parentToward (checker : Checker) (id target : ClassId) : Query (Option Ty) := do
  let edges ← Query.edgesOf id
  let targetEdges ← Query.edgesOf target
  if targetEdges.kind = .interface then
    match ← checker.interfaceToward id target edges.interfaces none with
    | some edge => pure (some edge)
    | none => checker.superclassEdge id edges
  else
    checker.superclassEdge id edges

end Checker

end JavaGenerics
