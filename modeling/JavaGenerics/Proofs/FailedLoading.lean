import JavaGenerics.Proofs.InstalledClasses

/-!
# What remains where loading a class fails

A class may be loaded a second time, with another signature, and that may fail.  Its declaration is
replaced at the very end, so it stays what it was, like all other declarations.  **Its parameters
are less lucky.**  They are the variables of the earlier declaration where they have the same names,
and the bounds that have been set by the time something is refused stay set.

* `Loader.Abandoned` — which parameters have new bounds then, and what was refused.
* `Loader.loadClass_abandoned` — **so it is whenever loading fails.**  Nothing is lost where the
  class had no parameters of these names, or where their first bounds are refused.
* `Loader.box_loses_bound` — a class that keeps its declaration and gets a bound of the new one.
-/

namespace JavaGenerics

open Loading

namespace Loader

variable {store after : Store} {name : String} {kind : DeclKind} {sig : ClassSig}
  {e : SignatureError}

/-- Loading a class has been given up.  No declaration has changed, unless a class around it has
been filled in.  Some parameters of the signature have got their bounds, and no other variables have
changed.  Then the bounds of the next parameter were refused or, where there was none, the
superclass or an interface. -/
structure Abandoned (store after : Store) (name : String) (kind : DeclKind) (sig : ClassSig)
    (e : SignatureError) (id : ClassId) (vars : List TypeVarId) (scope : Scope)
    (done rest : List (ParamSig × TypeVarId)) : Prop where
  classes : store.FillsIn after
  found : after.idOf? name = some id
  params : after.AreParams (.ofClass id) sig.params vars
  overlays : scope.Overlays (scopeAround store ((outerName? name).bind store.idOf?)) sig.params vars
  split : sig.params.zip vars = done ++ rest
  bounds : ∀ before param var behind, done = before ++ (param, var) :: behind →
    var ∉ behind.map Prod.snd → ∃ bounds,
      after.param? var = some { name := param.name, declarer := .ofClass id, bounds := bounds } ∧
        (denoteAll scope param.bounds).Settled after (.ok bounds)
  other_params : ∀ var, store.KnowsVar var → var ∉ done.map Prod.snd →
    after.param? var = store.param? var
  refused : StopsBefore scope rest after (.error e) ∨
    rest = [] ∧ ((denoteSuperclass scope kind sig.superclass).Settled after (.error e) ∨
      (denoteClasses scope sig.interfaces).Settled after (.error e))

/-- One of the supertypes is refused. -/
lemma refused_supertypes {scope : Scope} (hindexed : after.Indexed)
    (h : (denoteSupertypes sig scope kind).Settled after (.error e)) :
    (denoteSuperclass scope kind sig.superclass).Settled after (.error e) ∨
      (denoteClasses scope sig.interfaces).Settled after (.error e) := by
  have hinterfaces := onlyMentions_denoteClasses scope sig.interfaces
  rcases Settled.of_bind_error (onlyMentions_denoteSuperclass scope kind sig.superclass)
    (fun _ => hinterfaces.bind fun _ => .pure _) hindexed h with hsuper | ⟨_, -, hrest⟩
  · exact Or.inl hsuper
  · rcases Settled.of_bind_error hinterfaces (fun _ => .pure _) hindexed hrest with
      hinter | ⟨_, -, hpure⟩
    · exact Or.inr hinter
    · cases hpure

/-- The class is there, so it is one of its types that is refused. -/
lemma Begun.types_refused {params : List ParamSig} {start : Store} {id : ClassId}
    {enclosing : Option ClassId} {vars : List TypeVarId} {scope : Scope} {decl : ClassDecl}
    (hbegun : Begun store name params start id enclosing vars scope) (hstart : start.Consistent)
    (hfailed : runOn (finishClass sig scope id decl) start = (.error e, after)) :
    runOn (translateTypes sig scope decl.kind decl.params) start = (.error e, after) := by
  rcases runOn_bind_eq_error.mp hfailed with htypes | ⟨types, ready, htypes, hinstall⟩
  · exact htypes
  · have hevolves := (evolves_translateTypes sig decl.kind decl.params hstart hbegun.known).1
    rw [htypes] at hevolves
    have hnamed := hevolves.keeps.names id name hbegun.named
    rcases runOn_bind_eq_error.mp hinstall with hchange | ⟨_, _, -, hreturn⟩
    · rw [runOn_change] at hchange
      split at hchange
      · cases hchange
      · rename_i hrefused
        rw [Store.nameOf?_of_refused hrefused] at hnamed
        cases hnamed
    · cases hreturn

/-- **Where loading a class fails, the declarations stay and some bounds do not.** -/
theorem loadClass_abandoned {first : Store}
    (hfirst : first = Store.core ∨ first = Store.collections) (hreaches : first.Reaches store)
    (hfailed : runOn (loadClass name kind sig) store = (.error e, after)) :
    ∃ id vars scope done rest,
      Abandoned store after name kind sig e id vars scope done rest := by
  have hconsistent := Store.consistent_of_stock hfirst
  have h := (hreaches.evolves hconsistent).consistent hconsistent
  obtain ⟨start, id, enclosing, vars, scope, hbegun, hsteps⟩ := exists_begun h name kind sig
  have hstart := hbegun.evolves.consistent h
  rw [hsteps] at hfailed
  have htypes := hbegun.types_refused hstart hfailed
  have hevolves := (evolves_translateTypes sig kind vars hstart hbegun.known).1
  rw [htypes] at hevolves
  obtain ⟨hfills, hindexed, done, rest, hsplit, hset, htranslated⟩ :=
    translateTypes_run hbegun.declares hstart.sound.indexed htypes
  refine ⟨id, vars, scope, done, rest,
    { classes := trans_of Store.FillsIn hbegun.fillsIn hfills
      found := hfills.found _ _ ((hstart.indexed _ _).mpr hbegun.named)
      params := hbegun.declares.mono hevolves.keeps
      overlays := hbegun.overlays
      split := hsplit
      bounds := fun before param var behind hdone hlast => ?_
      other_params := fun var hvar hunset => by rw [hset.others var hunset, hbegun.kept var hvar]
      refused := ?_ }⟩
  · have hmem : (param, var) ∈ sig.params.zip vars := by
      simp [hsplit, hdone]
    exact hset.exists_bounds hdone hlast (hbegun.declares.key_of_mem_zip param var hmem)
  · rcases htranslated with ⟨hrest, hsettled⟩ | ⟨_, heq, hstops⟩
    · exact Or.inr ⟨hrest, refused_supertypes hindexed hsettled⟩
    · cases heq
      exact Or.inl hstops

/-- A class without parameters that extends a list of something that is not in sight. -/
def brokenSig : ClassSig where
  params := []
  superclass := .mk ["java", "util"] [.mk "ArrayList" [.exactly (.var "X")]]
  interfaces := []

/-- What is left after loading it has failed. -/
def withBroken : Store :=
  (runOn (loadClass "com.example.Broken" .ordinary brokenSig) Store.collections).2

/-- To load it changes nothing that was there. -/
theorem withBroken_unchanged :
    Store.collections.FillsIn withBroken ∧
      ∀ var, Store.collections.KnowsVar var →
        withBroken.param? var = Store.collections.param? var := by
  have herror : (runOn (loadClass "com.example.Broken" .ordinary brokenSig) Store.collections).1 =
      .error (.notInScope "X") := by
    decide +kernel
  have hfailed : runOn (loadClass "com.example.Broken" .ordinary brokenSig) Store.collections =
      (.error (.notInScope "X"), withBroken) := Prod.ext herror rfl
  obtain ⟨id, vars, scope, done, rest, habandoned⟩ :=
    loadClass_abandoned (Or.inr rfl) (.refl Store.collections) hfailed
  have hdone : done = [] := by
    have hsplit := habandoned.split
    simp only [brokenSig, List.zip_nil_left, List.nil_eq, List.append_eq_nil_iff] at hsplit
    exact hsplit.1
  exact ⟨habandoned.classes, fun var hvar => habandoned.other_params var hvar (by simp [hdone])⟩

/-- A class with one parameter `T`, which has a class of `java.lang` for its bound, and the given
superclass. -/
def boxSig (bound : String) (superclass : ClassTypeSig) : ClassSig where
  params := [{
    name := "T"
    classBound := some (.cls (.mk ["java", "lang"] [.mk bound []]))
    interfaceBounds := [] }]
  superclass := superclass
  interfaces := []

/-- The collection classes and `Box<T extends Number>`. -/
def withBox : Store :=
  (runOn (loadClass "com.example.Box" .ordinary (boxSig "Number" Store.objectSig))
    Store.collections).2

/-- A superclass that names a variable which is not in sight. -/
def strayBase : ClassTypeSig :=
  .mk ["com", "example"] [.mk "Base" [.exactly (.var "X")]]

/-- What is left after the box could not be declared anew as `Box<T extends String>`, because its
superclass is refused. -/
def withBoxRefused : Store :=
  (runOn (loadClass "com.example.Box" .ordinary (boxSig "String" strayBase)) withBox).2

/-- A variable that passes a test afterwards, and did not do so before, has changed. -/
lemma not_params_kept {var : TypeVarId} {test : TypeParam → Bool} (hknown : store.KnowsVar var)
    (hbefore : (store.param? var).any test = false) (hafter : (after.param? var).any test = true) :
    ¬ ∀ var param, store.param? var = some param → after.param? var = some param := by
  intro hall
  obtain ⟨param, hparam⟩ := hknown
  rw [hall var param hparam, ← hparam, hbefore] at hafter
  cases hafter

/-- The box is what it was, and so is its parameter.  But the parameter was bounded by `Number`, and
now it is by `String`. -/
theorem box_loses_bound :
    (runOn (loadClass "com.example.Box" .ordinary (boxSig "String" strayBase)) withBox).1 =
        .error (.notInScope "X") ∧
      (withBox.class? ⟨33⟩).map ClassDecl.params = some [⟨14⟩] ∧
      (withBoxRefused.class? ⟨33⟩).map ClassDecl.params = some [⟨14⟩] ∧
      (withBox.param? ⟨14⟩).any (·.bounds == [.cls ⟨6⟩]) = true ∧
      (withBoxRefused.param? ⟨14⟩).any (·.bounds == [.cls ⟨5⟩]) = true ∧
      ¬ ∀ var param, withBox.param? var = some param → withBoxRefused.param? var = some param := by
  have hknown : withBox.KnowsVar ⟨14⟩ := Option.isSome_iff_exists.mp (by decide +kernel)
  have hbefore : (withBox.param? ⟨14⟩).any (·.bounds == [.cls ⟨5⟩]) = false := by decide +kernel
  have hafter : (withBoxRefused.param? ⟨14⟩).any (·.bounds == [.cls ⟨5⟩]) = true := by
    decide +kernel
  exact ⟨by decide +kernel, by decide +kernel, by decide +kernel, by decide +kernel, hafter,
    not_params_kept hknown hbefore hafter⟩

end Loader

end JavaGenerics
