import JavaGenerics.Proofs.Walk

/-!
# The way of a walk

In a walkable store, and for a subject without variables, a walk is an ascent.  On other stores and
from other subjects it still is something definite: it takes a way through the types, and on it each
applied class passes its arguments on to its parameters.  Nothing but these arguments is recorded,
later ones over earlier ones.

* `Checker.Way` — the types that a walk toward a class comes through.
* `Passing`, `Checker.PassedOn` — what is passed on the way, each argument with the bindings as of
  which its variables are replaced.
* `Bindings.record` — the bindings that are made of it, and `Bindings.get?_record`: a variable is
  bound to **what was passed to it last**.
* `Checker.outcome_of_walkWithin` — **every walk that finds something has taken such a way**, on
  every store and from every subject.
-/

namespace JavaGenerics

namespace Ty

/-! ## Applied classes within one another -/

mutual

/-- The classes with their arguments that an applied class consists of, the outermost owner
first. -/
def applications : Ty → List (ClassId × List Ty)
  | .applied raw args owner => applicationsOwner owner ++ [(raw, args)]
  | _ => []

def applicationsOwner : Option Ty → List (ClassId × List Ty)
  | none => []
  | some owner => applications owner

end

end Ty

namespace Checker

variable (checker : Checker)

/-! ## Supertypes to follow -/

/-- A supertype that can be followed names a class. -/
lemma rawClass?_of_supertypeClass {id next : ClassId} {edge : Ty}
    (h : checker.supertypeClass id edge = .ok next) : edge.rawClass? = some next := by
  unfold supertypeClass at h
  cases hraw : edge.rawClass? with
  | none => simp [hraw] at h
  | some raw => simpa [hraw] using h

lemma mem_of_interfaceToward (id target : ClassId) {edge : Ty} : ∀ (edges : List Ty)
    (chosen : Option (Ty × ClassId)),
    checker.answer (checker.interfaceToward id target edges chosen) = .ok (some edge) →
    (edge ∈ edges ∧ ∃ next, edge.rawClass? = some next) ∨ ∃ old, chosen = some (edge, old)
  | [], chosen, h => by
    obtain ⟨⟨found, old⟩, hchosen, rfl⟩ := Option.map_eq_some_iff.mp (Except.ok.inj h)
    exact Or.inr ⟨old, hchosen⟩
  | first :: rest, chosen, h => by
    rw [interfaceToward, answer_bind, answer_lift] at h
    obtain ⟨next, hnext, h⟩ := bind_eq_ok.mp h
    rw [answer_bind] at h
    obtain ⟨converts, -, h⟩ := bind_eq_ok.mp h
    have hskip : checker.answer (checker.interfaceToward id target rest chosen) = .ok (some edge) →
        (edge ∈ first :: rest ∧ ∃ next, edge.rawClass? = some next) ∨
          ∃ old, chosen = some (edge, old) := fun hrest =>
      (mem_of_interfaceToward id target rest chosen hrest).imp_left
        (And.imp_left (List.mem_cons_of_mem _))
    have htake : checker.answer (checker.interfaceToward id target rest (some (first, next))) =
        .ok (some edge) → edge ∈ first :: rest ∧ ∃ next, edge.rawClass? = some next := by
      intro hrest
      rcases mem_of_interfaceToward id target rest _ hrest with ⟨hmem, hraw⟩ | ⟨old, hold⟩
      · exact ⟨List.mem_cons_of_mem _ hmem, hraw⟩
      · obtain ⟨rfl, -⟩ := Prod.mk.inj (Option.some.inj hold)
        exact ⟨List.mem_cons_self, next, checker.rawClass?_of_supertypeClass hnext⟩
    cases converts with
    | false => exact hskip h
    | true =>
        cases chosen with
        | none => exact Or.inl (htake h)
        | some old =>
            rw [if_pos rfl] at h
            simp only [answer_bind] at h
            obtain ⟨below, -, h⟩ := bind_eq_ok.mp h
            cases below with
            | true => exact Or.inl (htake h)
            | false => exact hskip h

/-- The supertype that is next is a declared one, and names a class. -/
lemma mem_of_nextToward {id target : ClassId} {edge : Ty}
    (h : checker.store.nextToward id target = .ok (some edge)) :
    ∃ decl, checker.store.class? id = some decl ∧ edge ∈ decl.edges.supertypes ∧
      ∃ next, edge.rawClass? = some next := by
  rw [← checker.answer_parentToward, parentToward, answer_bind, answer_edgesOf] at h
  obtain ⟨edges, hedges, h⟩ := bind_eq_ok.mp h
  obtain ⟨decl, hdecl, rfl⟩ := checker.class_of_edgesFromStore hedges
  refine ⟨decl, hdecl, ?_⟩
  have hsuper : checker.superclassEdge id decl.edges = .ok (some edge) →
      edge ∈ decl.edges.supertypes ∧ ∃ next, edge.rawClass? = some next := by
    intro hsome
    unfold superclassEdge at hsome
    cases hclass : decl.edges.superclass with
    | none => simp [hclass] at hsome
    | some superclass =>
        cases hnext : checker.supertypeClass id superclass with
        | error e => simp [hclass, hnext, Except.map] at hsome
        | ok next =>
            obtain rfl : superclass = edge := by simpa [hclass, hnext, Except.map] using hsome
            exact ⟨by simp [Edges.supertypes, hclass], next,
              checker.rawClass?_of_supertypeClass hnext⟩
  rw [answer_bind] at h
  obtain ⟨targetEdges, -, h⟩ := bind_eq_ok.mp h
  rw [answer_ite] at h
  split at h
  · rw [answer_bind] at h
    obtain ⟨found, hfound, h⟩ := bind_eq_ok.mp h
    cases found with
    | none => exact hsuper (by simpa using h)
    | some interface =>
        obtain rfl := Option.some.inj (Except.ok.inj h)
        rcases checker.mem_of_interfaceToward id target _ none hfound with
          ⟨hmem, hraw⟩ | ⟨old, hold⟩
        · exact ⟨List.mem_append_right _ hmem, hraw⟩
        · cases hold
  · exact hsuper (by simpa using h)

/-! ## Ways -/

/-- The class that a walk is at.  A primitive walks as its box. -/
def classAt? : Ty → Option ClassId
  | .cls id => some ((checker.store.wellKnown.primitive? id).elim id
      checker.store.wellKnown.boxes.get)
  | .applied raw _ _ => some raw
  | _ => none

/-- The upper bounds of a type that is walked through one of them. -/
def boundsOf? : Ty → Option (List Ty)
  | .var v => (checker.varBounds v).toOption
  | .wildcard upper _ => some (checker.upperBounds upper)
  | _ => none

/-- Whether a bound is assignable to a class, as far as this can be told at some depth. -/
def BoundLeads (target : ClassId) (bound : Ty) (leads : Bool) : Prop :=
  ∃ depth, checker.answer (checker.assignWithin depth (some bound) (.cls target) none) = .ok leads

/-- The type that a walk goes on with: the declared supertype that is next, or the first bound that
leads to the target. -/
inductive Follows (target : ClassId) : Ty → Ty → Prop
  | parent {subject parent : Ty} {id : ClassId} (hclass : checker.classAt? subject = some id)
      (hne : id ≠ target) (hnext : checker.store.nextToward id target = .ok (some parent)) :
      Follows target subject parent
  | bound {subject bound : Ty} {before after : List Ty}
      (hbounds : checker.boundsOf? subject = some (before ++ bound :: after))
      (hskipped : ∀ other ∈ before, checker.BoundLeads target other false)
      (htaken : checker.BoundLeads target bound true) : Follows target subject bound

/-- Where a walk ends: at the target, where no declared supertype leads on, or at an array. -/
inductive Stops (target : ClassId) : Ty → Prop
  | arrived {subject : Ty} (hclass : checker.classAt? subject = some target) : Stops target subject
  | top {subject : Ty} {id : ClassId} (hclass : checker.classAt? subject = some id)
      (hne : id ≠ target) (hnext : checker.store.nextToward id target = .ok none) :
      Stops target subject
  | array (component : Ty) : Stops target (.array component)

/-- The types that a walk comes through, from its subject on. -/
inductive Way (target : ClassId) : Ty → List Ty → Prop
  | stop {subject : Ty} (h : checker.Stops target subject) : Way target subject [subject]
  | step {subject next : Ty} {way : List Ty} (h : checker.Follows target subject next)
      (hrest : Way target next way) : Way target subject (subject :: way)

/-- What each step keeps holds of all types on a way. -/
lemma Way.forall_mem {checker : Checker} {target : ClassId} {subject : Ty} {way : List Ty}
    {P : Ty → Prop} (h : checker.Way target subject way) (hsubject : P subject)
    (hstep : ∀ ty next, P ty → checker.Follows target ty next → P next) : ∀ ty ∈ way, P ty := by
  induction h with
  | stop => simpa using hsubject
  | step hnext _ ih =>
      exact List.forall_mem_cons.mpr ⟨hsubject, ih (hstep _ _ hsubject hnext)⟩

end Checker

/-! ## Passing arguments -/

/-- An argument that is passed to a parameter. -/
structure Passing where
  param : TypeVarId
  arg : Ty
  /-- The bindings as of which the variables of the argument are replaced. -/
  before : Bindings
  /-- The argument after that. -/
  value : Ty

namespace Bindings

/-- Binds each parameter to what is passed to it. -/
def record (map : Bindings) (passed : List Passing) : Bindings :=
  passed.foldl (fun map passing => map.bind passing.param passing.value) map

@[simp]
lemma record_cons (map : Bindings) (passing : Passing) (passed : List Passing) :
    map.record (passing :: passed) = (map.bind passing.param passing.value).record passed := rfl

lemma record_append (map : Bindings) (first rest : List Passing) :
    map.record (first ++ rest) = (map.record first).record rest :=
  List.foldl_append

end Bindings

/-- What was passed to a variable last. -/
def lastPassed (passed : List Passing) (v : TypeVarId) : Option Passing :=
  passed.reverse.find? fun passing => passing.param = v

lemma param_of_lastPassed {passed : List Passing} {v : TypeVarId} {passing : Passing}
    (h : lastPassed passed v = some passing) : passing ∈ passed ∧ passing.param = v :=
  ⟨List.mem_reverse.mp (List.mem_of_find?_eq_some h),
    by simpa using List.find?_some h⟩

/-- **A variable is bound to what was passed to it last**, and as before if nothing was. -/
lemma Bindings.get?_record (v : TypeVarId) : ∀ (passed : List Passing) (map : Bindings),
    (map.record passed).get? v = ((lastPassed passed v).map Passing.value).or (map.get? v)
  | [], _ => rfl
  | passing :: passed, map => by
    rw [record_cons, get?_record v passed, get?_bind]
    simp only [lastPassed, List.reverse_cons, List.find?_append]
    cases List.find? (fun passing : Passing => decide (passing.param = v)) passed.reverse with
    | some last => rfl
    | none =>
        by_cases hv : v = passing.param
        · simp [hv]
        · simp [hv, Ne.symm hv]

namespace Checker

variable (checker : Checker)

/-- What a class that is applied to arguments passes on: all arguments, in order, but those that are
the parameters themselves. -/
structure Passes (before : Bindings) (raw : ClassId) (args : List Ty) (passed : List Passing) :
    Prop where
  declared : ∃ decl, checker.store.class? raw = some decl ∧ args.length = decl.params.length ∧
    passed.map (fun passing => (passing.param, passing.arg)) =
      (decl.params.zip args).filter fun entry => entry.2.var? ≠ some entry.1
  replaced : ∀ passing ∈ passed, passing.before = before ∧
    ∃ depth, checker.substWithin before depth passing.arg = .ok passing.value

/-- What several applied classes pass on, one after the other. -/
inductive PassedOn : Bindings → List (ClassId × List Ty) → List Passing → Prop
  | nil {map : Bindings} : PassedOn map [] []
  | cons {map : Bindings} {raw : ClassId} {args : List Ty} {apps : List (ClassId × List Ty)}
      {first rest : List Passing} (hfirst : checker.Passes map raw args first)
      (hrest : PassedOn (map.record first) apps rest) :
      PassedOn map ((raw, args) :: apps) (first ++ rest)

variable {checker}

lemma PassedOn.append {map : Bindings} {apps apps' : List (ClassId × List Ty)}
    {passed passed' : List Passing} (h : checker.PassedOn map apps passed)
    (h' : checker.PassedOn (map.record passed) apps' passed') :
    checker.PassedOn map (apps ++ apps') (passed ++ passed') := by
  induction h with
  | nil => exact h'
  | cons hfirst hrest ih =>
      rw [Bindings.record_append] at h'
      rw [List.cons_append, List.append_assoc]
      exact .cons hfirst (ih h')

lemma Passes.passedOn {map : Bindings} {raw : ClassId} {args : List Ty} {passed : List Passing}
    (h : checker.Passes map raw args passed) : checker.PassedOn map [(raw, args)] passed := by
  simpa using PassedOn.cons h .nil

/-- Binding arguments is recording what they pass on. -/
lemma exists_passed_of_bindArguments (fuel : Nat) (before : Bindings) :
    ∀ {params : List TypeVarId} {args : List Ty} {map next : Bindings},
      checker.bindArguments fuel before params args map = .ok next →
      ∃ passed : List Passing,
        passed.map (fun passing => (passing.param, passing.arg)) =
          (params.zip args).filter (fun entry => entry.2.var? ≠ some entry.1) ∧
        (∀ passing ∈ passed, passing.before = before ∧
          ∃ depth, checker.substWithin before depth passing.arg = .ok passing.value) ∧
        next = map.record passed
  | [], _, map, next, h => by
    rw [bindArguments] at h
    · exact ⟨[], by simp, by simp, (Except.ok.inj h).symm⟩
    · simp
  | _ :: _, [], map, next, h => by
    rw [bindArguments] at h
    · exact ⟨[], by simp, by simp, (Except.ok.inj h).symm⟩
    · simp
  | param :: params, arg :: args, map, next, h => by
    rw [bindArguments] at h
    split at h
    · rename_i hself
      obtain ⟨passed, hpassed, hreplaced, rfl⟩ := exists_passed_of_bindArguments fuel before h
      exact ⟨passed, by simp [hpassed, hself], hreplaced, rfl⟩
    · rename_i hself
      obtain ⟨value, hvalue, hrest⟩ := bind_eq_ok.mp h
      obtain ⟨passed, hpassed, hreplaced, rfl⟩ := exists_passed_of_bindArguments fuel before hrest
      exact ⟨⟨param, arg, before, value⟩ :: passed, by simp [hpassed, hself],
        List.forall_mem_cons.mpr ⟨⟨rfl, fuel, hvalue⟩, hreplaced⟩, rfl⟩

/-! ## Steps of a walk -/

/-- Walking from an applied class to this class itself binds what it and its owners pass on. -/
def BindsOwn (checker : Checker) (walk : WalkDown) : Prop :=
  ∀ raw args owner map result,
    checker.answer (walk (.applied raw args owner) raw map) = .ok result →
    ∃ passed, checker.PassedOn map (Ty.applied raw args owner).applications passed ∧
      result = some (map.record passed)

lemma passedOn_of_walkOwner {walk : WalkDown} (hwalk : checker.BindsOwn walk) {owner : Option Ty}
    {map before : Bindings} (h : checker.answer (walkOwner walk owner map) = .ok before) :
    ∃ passed, checker.PassedOn map (Ty.applicationsOwner owner) passed ∧
      before = map.record passed := by
  unfold walkOwner at h
  split at h
  · rw [answer_bind] at h
    obtain ⟨result, hresult, hbefore⟩ := bind_eq_ok.mp h
    obtain ⟨passed, hpassed, rfl⟩ := hwalk _ _ _ _ _ hresult
    exact ⟨passed, hpassed, (Except.ok.inj hbefore).symm⟩
  · rename_i hother
    refine ⟨[], ?_, (Except.ok.inj h).symm⟩
    cases owner with
    | none => exact .nil
    | some outer =>
        cases outer with
        | applied raw args owner => exact absurd rfl (hother raw args owner)
        | _ => exact .nil

/-- An applied class passes its arguments on, and then has arrived or walks on. -/
lemma passedOn_of_walkApplied {walk : WalkDown} (hwalk : checker.BindsOwn walk) {fuel : Nat}
    {raw : ClassId} {args : List Ty} {owner : Option Ty} {target : ClassId} {map : Bindings}
    {result : Option Bindings}
    (h : checker.answer (checker.walkApplied walk fuel raw args owner target map) = .ok result) :
    checker.answer (checker.classConverts raw target) = .ok false ∧ result = none ∨
      ∃ passed, checker.PassedOn map (Ty.applied raw args owner).applications passed ∧
        (raw = target ∧ result = some (map.record passed) ∨
          raw ≠ target ∧ checker.answer
            (checker.walkParent walk raw target (map.record passed)) = .ok result) := by
  rw [walkApplied, answer_bind] at h
  obtain ⟨converts, hconverts, h⟩ := bind_eq_ok.mp h
  cases converts with
  | false => exact Or.inl ⟨hconverts, (Except.ok.inj h).symm⟩
  | true =>
      rw [if_pos rfl, answer_bind] at h
      obtain ⟨before, hbefore, h⟩ := bind_eq_ok.mp h
      obtain ⟨outer, houter, rfl⟩ := passedOn_of_walkOwner hwalk hbefore
      rw [answer_bind, answer_edgesOf] at h
      obtain ⟨edges, hedges, h⟩ := bind_eq_ok.mp h
      obtain ⟨decl, hdecl, rfl⟩ := checker.class_of_edgesFromStore hedges
      rw [answer_ite, answer_fail] at h
      split at h
      · cases h
      · rename_i hlength
        rw [answer_bind, answer_lift] at h
        obtain ⟨bound, hbound, h⟩ := bind_eq_ok.mp h
        obtain ⟨own, hown, hreplaced, rfl⟩ := exists_passed_of_bindArguments fuel _ hbound
        have hpasses : checker.Passes (map.record outer) raw args own :=
          ⟨⟨decl, hdecl, (not_not.mp hlength).symm, hown⟩, hreplaced⟩
        refine Or.inr ⟨outer ++ own, houter.append (by simpa using hpasses.passedOn), ?_⟩
        rw [Bindings.record_append]
        rw [answer_ite] at h
        split at h
        · rename_i harrived
          exact Or.inl ⟨harrived, (Except.ok.inj h).symm⟩
        · rename_i hne
          exact Or.inr ⟨hne, h⟩

/-- A walk from an applied class to this class itself never fails to arrive. -/
lemma bindsOwn_walkWithin (checker : Checker) : ∀ fuel : Nat,
    checker.BindsOwn (checker.walkWithin fuel)
  | 0 => fun _ _ _ _ _ h => by simp [walkWithin] at h
  | fuel + 1 => by
    intro raw args owner map result h
    rcases passedOn_of_walkApplied (bindsOwn_walkWithin checker fuel) h with
      ⟨hno, -⟩ | ⟨passed, hpassed, ⟨-, hresult⟩ | ⟨hne, -⟩⟩
    · simp [classConverts] at hno
    · exact ⟨passed, hpassed, hresult⟩
    · exact absurd rfl hne

/-! ## The whole walk -/

/-- What was passed on a way from the subject to the target is what was recorded. -/
def RecordedOnWay (checker : Checker) (target : ClassId) (subject : Ty)
    (map result : Bindings) : Prop :=
  ∃ way passed, checker.Way target subject way ∧
    checker.PassedOn map (way.flatMap Ty.applications) passed ∧ result = map.record passed

/-- A walk from a type that ends there has recorded what the type passes on. -/
lemma RecordedOnWay.stop {target : ClassId} {subject : Ty} {map : Bindings} {passed : List Passing}
    (h : checker.Stops target subject) (hpassed : checker.PassedOn map subject.applications passed) :
    checker.RecordedOnWay target subject map (map.record passed) :=
  ⟨[subject], passed, .stop h, by simpa using hpassed, rfl⟩

/-- A walk that goes on records what it passes first, and then what is passed further up. -/
lemma RecordedOnWay.step {target : ClassId} {subject next : Ty} {map result : Bindings}
    {passed : List Passing} (h : checker.Follows target subject next)
    (hpassed : checker.PassedOn map subject.applications passed)
    (hrest : checker.RecordedOnWay target next (map.record passed) result) :
    checker.RecordedOnWay target subject map result := by
  obtain ⟨way, later, hway, hlater, rfl⟩ := hrest
  refine ⟨subject :: way, passed ++ later, .step h hway, ?_, (map.record_append _ _).symm⟩
  rw [List.flatMap_cons]
  exact hpassed.append hlater

/-- The outcome of a walk to a primitive, which has nothing to bind, or to another class. -/
def Outcome (checker : Checker) (target : ClassId) (subject : Ty) (map result : Bindings) : Prop :=
  checker.isPrimitive target = true ∧ result = .empty ∨
    checker.RecordedOnWay target subject map result

lemma Outcome.step {target : ClassId} {subject next : Ty} {map result : Bindings}
    {passed : List Passing} (h : checker.Follows target subject next)
    (hpassed : checker.PassedOn map subject.applications passed)
    (hrest : checker.Outcome target next (map.record passed) result) :
    checker.Outcome target subject map result :=
  hrest.imp_right (.step h hpassed)

section Steps

variable {fuel : Nat} {target : ClassId}
  (hwalk : ∀ subject map result,
    checker.answer (checker.walkWithin fuel subject target map) = .ok (some result) →
      checker.Outcome target subject map result)

include hwalk

/-- From a class short of the target a walk goes on with the next supertype, or ends. -/
lemma outcome_of_walkParent {subject : Ty} {id : ClassId} {map result : Bindings}
    {passed : List Passing} (hclass : checker.classAt? subject = some id) (hne : id ≠ target)
    (hpassed : checker.PassedOn map subject.applications passed)
    (h : checker.answer (checker.walkParent (checker.walkWithin fuel) id target
      (map.record passed)) = .ok (some result)) :
    checker.Outcome target subject map result := by
  rw [answer_walkParent] at h
  obtain ⟨next, hnext, h⟩ := bind_eq_ok.mp h
  cases next with
  | none =>
      obtain rfl := Option.some.inj (Except.ok.inj h)
      exact Or.inr (.stop (.top hclass hne hnext) hpassed)
  | some parent => exact .step (.parent hclass hne hnext) hpassed (hwalk _ _ _ h)

lemma outcome_of_walkClass {id : ClassId} {map result : Bindings}
    (h : checker.answer (checker.walkClass (checker.walkWithin fuel) id target map) =
      .ok (some result)) : checker.Outcome target (.cls id) map result := by
  rw [walkClass, answer_bind] at h
  obtain ⟨converts, -, h⟩ := bind_eq_ok.mp h
  cases converts with
  | false => cases Except.ok.inj h
  | true =>
      rw [if_pos rfl] at h
      have hnothing : checker.PassedOn map (Ty.cls id).applications [] := .nil
      cases hprim : checker.store.wellKnown.primitive? id with
      | none =>
          have hclass : checker.classAt? (.cls id) = some id := by simp [classAt?, hprim]
          simp only [hprim, answer_ite] at h
          split at h
          · rename_i harrived
            obtain rfl := Option.some.inj (Except.ok.inj h)
            exact Or.inr (.stop (.arrived (harrived ▸ hclass)) hnothing)
          · rename_i hne
            exact outcome_of_walkParent hwalk hclass hne hnothing h
      | some p =>
          have hclass : checker.classAt? (.cls id) = some (checker.store.wellKnown.boxes.get p) := by
            simp [classAt?, hprim]
          simp only [hprim, answer_ite] at h
          split at h
          · rename_i hprimitive
            exact Or.inl ⟨hprimitive, (Option.some.inj (Except.ok.inj h)).symm⟩
          · split at h
            · rename_i harrived
              obtain rfl := Option.some.inj (Except.ok.inj h)
              exact Or.inr (.stop (.arrived (harrived ▸ hclass)) hnothing)
            · rename_i hne
              exact outcome_of_walkParent hwalk hclass hne hnothing h

lemma outcome_of_walkApplied {raw : ClassId} {args : List Ty} {owner : Option Ty}
    {map result : Bindings}
    (h : checker.answer (checker.walkApplied (checker.walkWithin fuel) fuel raw args owner target
      map) = .ok (some result)) :
    checker.Outcome target (.applied raw args owner) map result := by
  rcases passedOn_of_walkApplied (bindsOwn_walkWithin checker fuel) h with
    ⟨-, hnone⟩ | ⟨passed, hpassed, ⟨harrived, hresult⟩ | ⟨hne, hrest⟩⟩
  · cases hnone
  · obtain rfl := Option.some.inj hresult
    exact Or.inr (.stop (.arrived (congrArg some harrived)) hpassed)
  · exact outcome_of_walkParent hwalk rfl hne hpassed hrest

/-- Through the first bound that leads to the target; those before it have been passed over. -/
lemma outcome_of_walkBounds {subject : Ty} {map result : Bindings}
    (hpassed : checker.PassedOn map subject.applications []) :
    ∀ (before : List Ty) {bounds : List Ty},
    checker.boundsOf? subject = some (before ++ bounds) →
    (∀ other ∈ before, checker.BoundLeads target other false) →
    checker.answer (walkBounds (checker.walkWithin fuel) (checker.assignWithin fuel) target map
      bounds) = .ok (some result) → checker.Outcome target subject map result
  | _, [], _, _, h => by cases Except.ok.inj h
  | before, bound :: bounds, hbounds, hskipped, h => by
    rw [walkBounds, answer_bind] at h
    obtain ⟨leads, hleads, h⟩ := bind_eq_ok.mp h
    cases leads with
    | true => exact .step (.bound hbounds hskipped ⟨fuel, hleads⟩) hpassed (hwalk _ _ _ h)
    | false =>
        refine outcome_of_walkBounds hpassed (before ++ [bound]) (by simpa using hbounds) ?_ h
        intro other hother
        rcases List.mem_append.mp hother with hother | hother
        · exact hskipped other hother
        · exact List.mem_singleton.mp hother ▸ ⟨fuel, hleads⟩

end Steps

/-- **What a walk finds was recorded on a way to the target**, on every store and from every
subject, except that a primitive that walks to a primitive finds nothing to bind. -/
theorem outcome_of_walkWithin (checker : Checker) (target : ClassId) : ∀ (fuel : Nat) (subject : Ty)
    (map result : Bindings),
    checker.answer (checker.walkWithin fuel subject target map) = .ok (some result) →
    checker.Outcome target subject map result
  | 0, _, _, _, h => by simp [walkWithin] at h
  | fuel + 1, subject, map, result, h => by
    have hwalk := outcome_of_walkWithin checker target fuel
    simp only [walkWithin, walkStep] at h
    cases subject with
    | cls id => exact outcome_of_walkClass hwalk h
    | applied raw args owner => exact outcome_of_walkApplied hwalk h
    | var v =>
        rw [answer_bind, answer_lift] at h
        obtain ⟨bounds, hbounds, h⟩ := bind_eq_ok.mp h
        refine outcome_of_walkBounds hwalk .nil [] ?_ (by simp) h
        simp [boundsOf?, hbounds, Except.toOption]
    | wildcard upper lower => exact outcome_of_walkBounds hwalk .nil [] rfl (by simp) h
    | array component =>
        rw [answer_ite, answer_fail] at h
        split at h
        · cases h
        · rw [answer_bind] at h
          obtain ⟨leads, -, h⟩ := bind_eq_ok.mp h
          cases leads with
          | false => cases Except.ok.inj h
          | true =>
              obtain rfl := Option.some.inj (Except.ok.inj h)
              exact Or.inr (.stop (.array component) .nil)

end Checker

end JavaGenerics
