import JavaGenerics.Proofs.Ways

/-!
# What a walk leaves alone

A walk is handed bindings and gives back more of them.  Those that were made elsewhere, for the
variables of a method or of a class that has nothing to do with the subject, have to come through as
they are: on the way the bindings are handed to owners and back, overwritten by closer ones, and for
a primitive even thrown away.

* `Checker.ClimbsTo` — one class declares a supertype that a walk goes on from as the other class.
  This is `Store.Extends`, but for a supertype that is a primitive: the walk goes on from its box.
* `Store.Concerns` — the classes above a class, and the owners on the way.
* `Checker.Uphill` — the types that a walk may come through.  **From a class a walk comes through
  these only** (`Checker.Way.uphill`), as only variables and wildcards are walked through bounds.
* `Checker.answer_viewAs_extends` — **a walk keeps what is bound, and changes the parameters of
  concerned classes only.**
* `Checker.oddNumbers_bind_unrelated` — why a walk climbs and does not just follow the edges of the
  hierarchy.
-/

namespace JavaGenerics

open Relation

namespace Ty

/-- The classes of the applied types that a type is nested in. -/
def ownerClasses : Ty → List ClassId
  | .applied _ _ owner => (applicationsOwner owner).map Prod.fst
  | _ => []

end Ty

namespace Store

/-- The classes that a walk up from a class concerns, given by which steps it climbs: those that it
comes to, and those of the owners that its subject and the supertypes on the way have. -/
inductive Concerns (store : Store) (climbs : ClassId → ClassId → Prop) (start : ClassId)
    (subject : Ty) : ClassId → Prop
  | above {id : ClassId} (hpath : ReflTransGen climbs start id) :
      Concerns store climbs start subject id
  | owner {id : ClassId} (howner : id ∈ subject.ownerClasses) :
      Concerns store climbs start subject id
  | ownerAbove {child id : ClassId} {decl : ClassDecl} {edge : Ty}
      (hpath : ReflTransGen climbs start child) (hdecl : store.class? child = some decl)
      (hedge : edge ∈ decl.edges.supertypes) (howner : id ∈ edge.ownerClasses) :
      Concerns store climbs start subject id

end Store

/-- A variable whose binding is not the same afterwards was passed something. -/
lemma Bindings.exists_passing_of_get?_record_ne {map : Bindings} {passed : List Passing}
    {v : TypeVarId} (h : (map.record passed).get? v ≠ map.get? v) :
    ∃ passing ∈ passed, passing.param = v := by
  rw [get?_record] at h
  cases hlast : lastPassed passed v with
  | none => simp [hlast] at h
  | some passing => exact ⟨passing, param_of_lastPassed hlast⟩

/-- What is bound stays bound. -/
lemma Bindings.contains_record {map : Bindings} {v : TypeVarId} (passed : List Passing)
    (h : map.contains v = true) : (map.record passed).contains v = true := by
  rw [contains] at h ⊢
  rw [get?_record, Option.isSome_or, h, Bool.or_true]

namespace Checker

variable (checker : Checker)

/-- A class declares a supertype that a walk goes on from as the other class. -/
def ClimbsTo (child parent : ClassId) : Prop :=
  ∃ decl, checker.store.class? child = some decl ∧
    ∃ edge ∈ decl.edges.supertypes, checker.classAt? edge = some parent

/-- The types that a walk from a class may come through: its subject, and the classes, applied or
not, that classes it climbs to declare as supertypes. -/
inductive Uphill (start : ClassId) (subject : Ty) : Ty → Prop
  | subject (hclass : checker.classAt? subject = some start) : Uphill start subject subject
  | supertype {child raw : ClassId} {decl : ClassDecl} {edge : Ty}
      (hpath : ReflTransGen checker.ClimbsTo start child)
      (hdecl : checker.store.class? child = some decl) (hedge : edge ∈ decl.edges.supertypes)
      (hraw : edge.rawClass? = some raw) : Uphill start subject edge

variable {checker} {start target : ClassId} {subject ty next : Ty}

/-! ## The way up -/

/-- The class that a walk is at is one that it has climbed to. -/
lemma Uphill.path (h : checker.Uphill start subject ty) {id : ClassId}
    (hclass : checker.classAt? ty = some id) : ReflTransGen checker.ClimbsTo start id := by
  cases h with
  | subject hstart =>
      rw [hstart, Option.some.injEq] at hclass
      exact hclass ▸ .refl
  | supertype hpath hdecl hedge => exact hpath.tail ⟨_, hdecl, _, hedge, hclass⟩

/-- Every class whose arguments are passed on concerns the walk. -/
lemma Uphill.concerns (h : checker.Uphill start subject ty) {app : ClassId × List Ty}
    (happ : app ∈ ty.applications) :
    checker.store.Concerns checker.ClimbsTo start subject app.1 := by
  cases ty with
  | applied raw args owner =>
      rcases List.mem_append.mp happ with howner | hself
      · have hclass : app.1 ∈ (Ty.applied raw args owner).ownerClasses :=
          List.mem_map_of_mem howner
        cases h with
        | subject => exact .owner hclass
        | supertype hpath hdecl hedge => exact .ownerAbove hpath hdecl hedge hclass
      · rw [List.mem_singleton.mp hself]
        exact .above (h.path rfl)
  | _ => cases happ

/-- A class is not walked through bounds. -/
lemma Uphill.boundsOf?_eq_none (h : checker.Uphill start subject ty) :
    checker.boundsOf? ty = none := by
  cases ty with
  | cls | applied | array => rfl
  | _ =>
      cases h with
      | subject hclass => cases hclass
      | supertype _ _ _ hraw => cases hraw

/-- A step up from a class leads to a class. -/
lemma Uphill.follows (h : checker.Uphill start subject ty)
    (hnext : checker.Follows target ty next) : checker.Uphill start subject next := by
  cases hnext with
  | parent hclass _ hparent =>
      obtain ⟨decl, hdecl, hedge, raw, hraw⟩ := checker.mem_of_nextToward hparent
      exact .supertype (h.path hclass) hdecl hedge hraw
  | bound hbounds =>
      rw [h.boundsOf?_eq_none] at hbounds
      cases hbounds

/-- **The way from a class leads uphill only.** -/
lemma Way.uphill {way : List Ty} (h : checker.Way target subject way)
    (hstart : checker.classAt? subject = some start) :
    ∀ ty ∈ way, checker.Uphill start subject ty :=
  h.forall_mem (.subject hstart) fun _ _ hty hnext => hty.follows hnext

/-! ## What is passed on -/

/-- A class passes arguments to its own parameters. -/
lemma Passes.param_mem {before : Bindings} {raw : ClassId} {args : List Ty} {passed : List Passing}
    (h : checker.Passes before raw args passed) :
    ∀ passing ∈ passed, passing.param ∈ checker.store.paramsOf raw := by
  intro passing hpassing
  obtain ⟨decl, hdecl, -, hpassed⟩ := h.declared
  have hmem := List.mem_map_of_mem (f := fun passing => (passing.param, passing.arg)) hpassing
  rw [hpassed] at hmem
  rw [Store.paramsOf_eq hdecl]
  exact (List.of_mem_zip (List.mem_of_mem_filter hmem)).1

/-- Nothing is passed to other variables than the parameters of the classes that are applied. -/
lemma PassedOn.param_mem {map : Bindings} {apps : List (ClassId × List Ty)} {passed : List Passing}
    (h : checker.PassedOn map apps passed) :
    ∀ passing ∈ passed, ∃ app ∈ apps, passing.param ∈ checker.store.paramsOf app.1 := by
  induction h with
  | nil => simp
  | cons hfirst _ ih =>
      intro passing hpassing
      rcases List.mem_append.mp hpassing with hpassing | hpassing
      · exact ⟨_, List.mem_cons_self, hfirst.param_mem passing hpassing⟩
      · obtain ⟨app, happ, hparam⟩ := ih passing hpassing
        exact ⟨app, List.mem_cons_of_mem _ happ, hparam⟩

/-! ## The frame of a walk -/

/-- **A walk extends what it inherits.**  On every store, from every class, applied or not, and
toward every class that is no primitive: what is bound stays bound, though perhaps to something
else, and a variable is bound anew only if it is a parameter of a class that concerns the walk.  So
the bindings of variables that no class has for a parameter come through as they are. -/
theorem answer_viewAs_extends (checker : Checker) {subject : Ty} {raw : ClassId}
    (hsubject : subject.rawClass? = some raw) {target : ClassId}
    (htarget : checker.isPrimitive target = false) {inherited map : Bindings}
    (h : checker.answer (checker.viewAs subject target inherited) = .ok (some map)) :
    (∀ v, inherited.contains v = true → map.contains v = true) ∧
      (∀ v, map.get? v ≠ inherited.get? v →
        ∃ start id, checker.classAt? subject = some start ∧
          checker.store.Concerns checker.ClimbsTo start subject id ∧
          v ∈ checker.store.paramsOf id) ∧
      ∀ v, (∀ id, v ∉ checker.store.paramsOf id) → map.get? v = inherited.get? v := by
  obtain ⟨start, hstart⟩ : ∃ start, checker.classAt? subject = some start := by
    cases subject with
    | cls | applied => exact ⟨_, rfl⟩
    | _ => cases hsubject
  obtain ⟨way, passed, hway, hpassed, rfl⟩ :=
    (outcome_of_walkWithin checker target _ _ _ _ h).resolve_left (by simp [htarget])
  have hchanged : ∀ v, (inherited.record passed).get? v ≠ inherited.get? v →
      ∃ id, checker.store.Concerns checker.ClimbsTo start subject id ∧
        v ∈ checker.store.paramsOf id := by
    intro v hv
    obtain ⟨passing, hpassing, rfl⟩ := Bindings.exists_passing_of_get?_record_ne hv
    obtain ⟨app, happ, hparam⟩ := hpassed.param_mem passing hpassing
    obtain ⟨ty, hty, happ⟩ := List.mem_flatMap.mp happ
    exact ⟨app.1, (hway.uphill hstart ty hty).concerns happ, hparam⟩
  refine ⟨fun v => Bindings.contains_record passed, fun v hv => ?_, fun v hforeign => ?_⟩
  · obtain ⟨id, hconcerned, hparam⟩ := hchanged v hv
    exact ⟨start, id, hstart, hconcerned, hparam⟩
  · by_contra hv
    obtain ⟨id, -, hparam⟩ := hchanged v hv
    exact hforeign id hparam

/-- Seeing an `ArrayList<Integer>` as a `Collection` binds the parameter of `Collection`, and leaves
a variable alone that no class declares. -/
theorem arrayList_viewAs_extends :
    let checker : Checker := { store := .collections }
    let subject := Ty.app ⟨29⟩ [.cls ⟨16⟩]
    let inherited := Bindings.empty.bind ⟨99⟩ (.cls ⟨5⟩)
    subject.rawClass? = some ⟨29⟩ ∧ checker.isPrimitive ⟨24⟩ = false ∧
      ∃ map, checker.answer (checker.viewAs subject ⟨24⟩ inherited) = .ok (some map) ∧
        map.get? ⟨2⟩ = some (.cls ⟨16⟩) ∧
        (∀ v, inherited.contains v = true → map.contains v = true) ∧
        (∀ v, map.get? v ≠ inherited.get? v →
          ∃ start id, checker.classAt? subject = some start ∧
            checker.store.Concerns checker.ClimbsTo start subject id ∧
            v ∈ checker.store.paramsOf id) ∧
        ∀ v, (∀ id, v ∉ checker.store.paramsOf id) → map.get? v = inherited.get? v := by
  intro checker subject inherited
  have hclass : subject.rawClass? = some ⟨29⟩ := rfl
  have htarget : checker.isPrimitive ⟨24⟩ = false := rfl
  exact ⟨hclass, htarget, _, rfl, rfl, answer_viewAs_extends checker hclass htarget rfl⟩

end Checker

/-! ## Primitives above and below -/

namespace Store

/-- Whether all supertypes of the listed classes are of listed classes too, and have no owners. -/
def isClosed (store : Store) (ids : List ClassId) : Bool :=
  ids.all fun id => (store.class? id).all fun decl => decl.edges.supertypes.all fun edge =>
    edge.rawClass?.all (ids.contains ·) && edge.ownerClasses.isEmpty

/-- What a class concerns is listed where the classes above it are. -/
lemma mem_of_concerns {store : Store} {ids : List ClassId} (hclosed : store.isClosed ids = true)
    {start : ClassId} (hstart : start ∈ ids) {subject : Ty} (howner : subject.ownerClasses = [])
    {id : ClassId} (h : store.Concerns store.Extends start subject id) : id ∈ ids := by
  simp only [isClosed, List.all_eq_true, Option.all_eq_true, Bool.and_eq_true, List.isEmpty_iff,
    List.contains_iff_mem] at hclosed
  have habove : ∀ {other}, ReflTransGen store.Extends start other → other ∈ ids := by
    intro other hpath
    induction hpath with
    | refl => exact hstart
    | tail _ hstep ih =>
        obtain ⟨decl, hdecl, edge, hedge, hraw⟩ := hstep
        exact (hclosed _ ih decl hdecl edge hedge).1 _ hraw
  cases h with
  | above hpath => exact habove hpath
  | owner hmem => simp [howner] at hmem
  | ownerAbove hpath hdecl hedge hmem =>
      simp [(hclosed _ (habove hpath) _ hdecl _ hedge).2] at hmem

/-- The core classes with a box and a class that is declared to be an `int`.  `Integer` is declared
to be a box of a string, and `int` has a parameter.  No type in it has an owner. -/
def oddNumbers : Store :=
  let known := Stock.wellKnown
  let int := known.primitives.get .int
  .ofDeclarations known
    (((Stock.coreClasses.set int.index { Stock.primitiveClass .int with params := [⟨2⟩] }).set
      known.integer.index
        { Stock.boxClass .int with superclass := some (.app ⟨23⟩ [.cls known.string]) }) ++
      [ { name := "com.example.Box", params := [⟨1⟩], superclass := some Stock.object },
        { name := "com.example.Odd", superclass := some (.cls int) } ])
    (Stock.coreParams ++ [Stock.paramOf ⟨23⟩ "T", Stock.paramOf int "T"])

end Store

namespace Checker

/-- From a class whose supertype is a primitive a walk goes on to what lies above the box of that
primitive, though no edges lead there.  A primitive that is applied to arguments is no box, on the
other hand, and it is its own parameter that is bound. -/
theorem oddNumbers_bind_unrelated :
    let checker : Checker := { store := .oddNumbers }
    let known := checker.store.wellKnown
    let string := Ty.cls known.string
    let int := known.primitives.get .int
    checker.isPrimitive known.object = false ∧
    (∃ map, checker.answer (checker.viewAs (.cls ⟨24⟩) known.object .empty) = .ok (some map) ∧
      map.get? ⟨1⟩ = some string ∧
      ∀ id, checker.store.Concerns checker.store.Extends ⟨24⟩ (.cls ⟨24⟩) id →
        (⟨1⟩ : TypeVarId) ∉ checker.store.paramsOf id) ∧
    ∃ map, checker.answer (checker.viewAs (.app int [string]) known.object .empty) =
        .ok (some map) ∧
      map.get? ⟨2⟩ = some string ∧
      ∀ id, checker.store.Concerns checker.store.Extends (known.boxes.get .int)
          (.app int [string]) id → (⟨2⟩ : TypeVarId) ∉ checker.store.paramsOf id := by
  intro checker known string int
  refine ⟨rfl, ⟨_, rfl, rfl, fun id hid => ?_⟩, _, rfl, rfl, fun id hid => ?_⟩
  · -- Above the odd class there is `int` only.
    have hlisted : ∀ id ∈ [(⟨24⟩ : ClassId), int],
        (⟨1⟩ : TypeVarId) ∉ checker.store.paramsOf id := by
      decide +kernel
    exact hlisted id (Store.mem_of_concerns (by decide +kernel) (by decide) rfl hid)
  · -- Above `Integer` there are the box, `Comparable` and `Object`, but not `int`.
    have hlisted : ∀ id ∈ [known.integer, ⟨23⟩, known.comparable, known.object],
        (⟨2⟩ : TypeVarId) ∉ checker.store.paramsOf id := by
      decide +kernel
    exact hlisted id (Store.mem_of_concerns (by decide +kernel) (by decide) rfl hid)

end Checker

end JavaGenerics
