import JavaGenerics.Proofs.EnclosingCircles
import JavaGenerics.Proofs.HierarchySearch

/-!
# What comes of a search

A search for a class may find it, may find that it is not there, or may come upon a class that is
not known or a supertype that is no class.  It never enters a class twice, so it does not run on
along a circle of supertypes.  There is one way left in which it need not come to an end: the last
of these outcomes is an error that names the class and its supertype, and **where enclosing classes
run in a circle, writing such a name does not end.**

* `Returned` — something comes back.
* `Store.Stray` — a class declares a supertype that is no class.
* `Store.not_written_badSupertype_iff` — which reports of such a supertype are never finished.
* `Checker.leadsTo_reachability` — **the answers of the search are those of reachability, its errors
  have causes that can be reached, and it does not run out of steps.  It comes back, unless it
  reports a supertype and one of the names runs in a circle.**  So, on a store without faults,
  conversion is a preorder on classes.
* `Checker.circle_reachability` — the same on two classes above one another.
* `Checker.strayInCircle_endless` — a search that does not come back.
-/

namespace JavaGenerics

open Relation

/-- Something comes back: an answer, or an error that is reported. -/
def Returned {α : Type} (result : Except DeclError α) : Prop :=
  ∀ e, result = .error e → e.Written

namespace Store

variable {store : Store} {id : ClassId} {edge : Ty}

/-- The class declares a supertype that is neither a class nor an applied class. -/
def Stray (store : Store) (id : ClassId) (edge : Ty) : Prop :=
  ∃ decl, store.class? id = some decl ∧ edge ∈ decl.edges.supertypes ∧ edge.rawClass? = none

/-! ## Reports that are never finished -/

/-- **The report of a supertype is never finished exactly if the name of the class, or that of a
class in the supertype, runs in a circle.** -/
lemma not_written_badSupertype_iff :
    ¬ (DeclError.badSupertype (store.qualifiedName? id) (store.typeName? edge)).Written ↔
      store.RunsInCircle id ∨ ∃ other ∈ store.spelled edge, store.RunsInCircle other := by
  have hwritten :
      (DeclError.badSupertype (store.qualifiedName? id) (store.typeName? edge)).Written ↔
        (store.qualifiedName? id).isSome = true ∧ (store.typeName? edge).isSome = true := by
    rw [DeclError.Written, DeclError.message?]
    cases store.qualifiedName? id <;> cases store.typeName? edge <;> simp
  rw [hwritten, isSome_qualifiedName?_iff_not_runsInCircle, isSome_typeName?_iff_not_runsInCircle]
  simp only [not_and_or, not_not, not_forall, exists_prop]

lemma Fault.not_written_iff {e : DeclError} (h : store.Fault id e) :
    ¬ e.Written ↔ ∃ edge, store.Stray id edge ∧
      e = .badSupertype (store.qualifiedName? id) (store.typeName? edge) ∧
      (store.RunsInCircle id ∨ ∃ other ∈ store.spelled edge, store.RunsInCircle other) := by
  constructor
  · intro hendless
    cases h with
    | unknown => exact absurd (by simp [DeclError.Written, DeclError.message?]) hendless
    | supertype hdecl hedge hraw =>
        exact ⟨_, ⟨_, hdecl, hedge, hraw⟩, rfl, not_written_badSupertype_iff.mp hendless⟩
  · rintro ⟨edge, -, rfl, hcircle⟩
    exact not_written_badSupertype_iff.mpr hcircle

end Store

namespace Checker

/-- A search does not come back exactly if it reports a supertype with a name that runs in a
circle. -/
lemma not_returned_leadsTo_iff (checker : Checker) (source : ClassId) {target : ClassId}
    (htarget : target ≠ checker.store.wellKnown.object) :
    ¬ Returned (checker.answer (checker.leadsTo source target)) ↔
      ∃ id edge, ReflTransGen checker.store.Extends source id ∧ checker.store.Stray id edge ∧
        checker.answer (checker.leadsTo source target) =
          .error (.badSupertype (checker.store.qualifiedName? id) (checker.store.typeName? edge)) ∧
        (checker.store.RunsInCircle id ∨
          ∃ other ∈ checker.store.spelled edge, checker.store.RunsInCircle other) := by
  have hfound := found_leadsTo checker source htarget
  rw [Returned]
  push Not
  constructor
  · rintro ⟨e, he, hendless⟩
    rw [he] at hfound ⊢
    obtain ⟨id, hpath, hfault⟩ := hfound
    obtain ⟨edge, hstray, rfl, hcircle⟩ := hfault.not_written_iff.mp hendless
    exact ⟨id, edge, hpath, hstray, rfl, hcircle⟩
  · rintro ⟨id, edge, -, -, hanswer, hcircle⟩
    exact ⟨_, hanswer, Store.not_written_badSupertype_iff.mpr hcircle⟩

/-- **The search for a class other than `Object` answers whether edges lead there, on every store.**
Yes means that they do.  No means that they do not, and that all that can be reached is declared and
has classes for supertypes.  An error means that something that can be reached is not, or has not.
With any number of steps that exceeds the number of classes, the search comes to this very result
and does not run out of steps.  It comes back, unless it reports a supertype of a class that can be
reached and the name of the class, or of one in the supertype, runs in a circle.

So, where supertypes are known classes and `Object` has none, **conversion between classes that are
no primitives is reflexive and transitive**. -/
theorem leadsTo_reachability (checker : Checker) :
    (∀ a b, b ≠ checker.store.wellKnown.object →
      (checker.answer (checker.leadsTo a b) = .ok true →
        ReflTransGen checker.store.Extends a b) ∧
      (checker.answer (checker.leadsTo a b) = .ok false →
        ¬ ReflTransGen checker.store.Extends a b ∧
          ∀ c, ReflTransGen checker.store.Extends a c → checker.store.Traversable c) ∧
      (∀ e, checker.answer (checker.leadsTo a b) = .error e →
        ∃ c, ReflTransGen checker.store.Extends a c ∧ checker.store.Fault c e) ∧
      (a ≠ b → ∀ steps, checker.store.size < steps →
        checker.answer (checker.reaches b steps [a] [a]) =
          (checker.answer (checker.leadsTo a b)).map some) ∧
      (¬ Returned (checker.answer (checker.leadsTo a b)) ↔
        ∃ c edge, ReflTransGen checker.store.Extends a c ∧ checker.store.Stray c edge ∧
          checker.answer (checker.leadsTo a b) =
            .error (.badSupertype (checker.store.qualifiedName? c) (checker.store.typeName? edge)) ∧
          (checker.store.RunsInCircle c ∨
            ∃ other ∈ checker.store.spelled edge, checker.store.RunsInCircle other))) ∧
    (checker.store.Nominal →
      (∀ decl, checker.store.class? checker.store.wellKnown.object = some decl →
        decl.edges.supertypes = []) →
      (∀ a, checker.isPrimitive a = false →
        checker.answer (checker.classConverts a a) = .ok true) ∧
      ∀ a b c, checker.isPrimitive a = false → checker.isPrimitive b = false →
        checker.isPrimitive c = false →
        checker.answer (checker.classConverts a b) = .ok true →
        checker.answer (checker.classConverts b c) = .ok true →
        checker.answer (checker.classConverts a c) = .ok true) := by
  refine ⟨fun a b hb => ?_, fun hnom htop => ⟨fun a _ => by simp [classConverts], ?_⟩⟩
  · have hfound := found_leadsTo checker a hb
    refine ⟨fun h => ?_, fun h => ?_, fun e h => ?_, fun hself => ?_, ?_⟩
    · rwa [h] at hfound
    · rwa [h] at hfound
    · rwa [h] at hfound
    · exact (found_leadsTo_of_ne checker hself hb).2
    · exact checker.not_returned_leadsTo_iff a hb
  · intro a b c ha hb hc hab hbc
    exact classConverts_trans hnom htop ha hb hc hab hbc

end Checker

/-! ## A circle of superclasses -/

namespace Store

/-- Whether every declared supertype names a class of the store. -/
def isNominal (store : Store) : Bool :=
  store.classes.toList.all fun decl => decl.edges.supertypes.all fun edge =>
    edge.rawClass?.any fun parent => (store.class? parent).isSome

lemma Nominal.of_isNominal {store : Store} (h : store.isNominal = true) : store.Nominal := by
  intro id decl hdecl edge hedge
  simp only [isNominal, List.all_eq_true, Option.any_eq_true, Option.isSome_iff_exists] at h
  exact h decl (Array.mem_toList_iff.mpr (Array.mem_of_getElem? hdecl)) edge hedge

/-- The core classes with two more, each of which is declared as the superclass of the other.  One
of them is serializable. -/
def circle : Store :=
  .ofDeclarations Stock.wellKnown
    (Stock.coreClasses ++
      [ { name := "com.example.A", superclass := some (.cls ⟨24⟩) },
        { name := "com.example.B", superclass := some (.cls ⟨23⟩),
          interfaces := [Stock.serializable] } ])
    Stock.coreParams

lemma circle_nominal : circle.Nominal :=
  .of_isNominal (by decide +kernel)

end Store

namespace Checker

/-- The search from a class on the circle ends, and does not find `String`.  What is above the one
class is above the other. -/
theorem circle_reachability :
    let checker : Checker := { store := .circle }
    (⟨5⟩ : ClassId) ≠ checker.store.wellKnown.object ∧
      checker.answer (checker.leadsTo ⟨23⟩ ⟨5⟩) = .ok false ∧
      ¬ ReflTransGen checker.store.Extends ⟨23⟩ ⟨5⟩ ∧
      (∀ steps, checker.store.size < steps →
        checker.answer (checker.reaches ⟨5⟩ steps [⟨23⟩] [⟨23⟩]) = .ok (some false)) ∧
      checker.answer (checker.classConverts ⟨23⟩ ⟨24⟩) = .ok true ∧
      checker.answer (checker.classConverts ⟨24⟩ ⟨2⟩) = .ok true ∧
      checker.answer (checker.classConverts ⟨23⟩ ⟨2⟩) = .ok true := by
  intro checker
  obtain ⟨hsearch, hpreorder⟩ := leadsTo_reachability checker
  have hobject : (⟨5⟩ : ClassId) ≠ checker.store.wellKnown.object := by decide
  have hanswer : checker.answer (checker.leadsTo ⟨23⟩ ⟨5⟩) = .ok false := rfl
  obtain ⟨-, hno, -, hsteps, -⟩ := hsearch ⟨23⟩ ⟨5⟩ hobject
  have hfirst : checker.answer (checker.classConverts ⟨23⟩ ⟨24⟩) = .ok true := rfl
  have hsecond : checker.answer (checker.classConverts ⟨24⟩ ⟨2⟩) = .ok true := rfl
  have htop : ∀ decl, checker.store.class? checker.store.wellKnown.object = some decl →
      decl.edges.supertypes = [] := by
    intro decl hdecl
    obtain rfl := Option.some.inj hdecl
    rfl
  refine ⟨hobject, hanswer, (hno hanswer).1, fun steps hlt => ?_, hfirst, hsecond, ?_⟩
  · rw [hsteps (by decide) steps hlt, hanswer]
    rfl
  · exact (hpreorder Store.circle_nominal htop).2 ⟨23⟩ ⟨24⟩ ⟨2⟩ (by decide) (by decide) (by decide)
      hfirst hsecond

end Checker

/-! ## A search that does not come back -/

namespace Store

/-- Two classes that lie in each other, and one of them is said to extend an array of strings. -/
def strayInCircle : List Change :=
  eachInOther ++ [.modifyClass ⟨23⟩ fun decl =>
    { decl with superclass := some (.array (.cls core.wellKnown.string)) }]

end Store

/-- **The search for `String` comes upon the array, and never gets to the end of the report**, which
names the class that declares it. -/
theorem Checker.strayInCircle_endless :
    let checker : Checker := { store := Store.core.changedBy Store.strayInCircle }
    checker.store.idOf? "com.example.A" = some ⟨23⟩ ∧
      checker.store.idOf? "com.example.B" = some ⟨24⟩ ∧
      checker.answer (checker.leadsTo ⟨23⟩ checker.store.wellKnown.string) =
        .error (.badSupertype none (some "java.lang.String[]")) ∧
      ¬ Returned (checker.answer (checker.leadsTo ⟨23⟩ checker.store.wellKnown.string)) := by
  intro checker
  have hfound : checker.store.idOf? "com.example.A" = some ⟨23⟩ ∧
      checker.store.idOf? "com.example.B" = some ⟨24⟩ := by decide +kernel
  have hlinks : checker.store.outer? ⟨23⟩ = some ⟨24⟩ ∧
      checker.store.outer? ⟨24⟩ = some ⟨23⟩ := by decide +kernel
  have hname : checker.store.qualifiedName? ⟨23⟩ = none :=
    Store.qualifiedName?_eq_none_iff.mpr (.of_two ⟨hlinks.1, by decide⟩ ⟨hlinks.2, by decide⟩)
  have hstring : checker.store.qualifiedName? ⟨5⟩ = some "java.lang.String" := by
    rw [Store.qualifiedName?]
    rfl
  have hanswer : checker.answer (checker.leadsTo ⟨23⟩ checker.store.wellKnown.string) =
      .error (.badSupertype none (some "java.lang.String[]")) := by
    have hreport : checker.answer (checker.leadsTo ⟨23⟩ checker.store.wellKnown.string) =
        .error (.badSupertype (checker.store.qualifiedName? ⟨23⟩)
          (checker.store.typeName? (.array (.cls ⟨5⟩)))) := rfl
    have harray : checker.store.typeName? (.array (.cls ⟨5⟩)) = some "java.lang.String[]" := by
      rw [Store.typeName?, Store.typeName?, hstring]
      rfl
    rw [hreport, hname, harray]
  refine ⟨hfound.1, hfound.2, hanswer, fun hreturned => ?_⟩
  exact absurd (hreturned _ hanswer) (by simp [DeclError.Written, DeclError.message?])

end JavaGenerics
