import JavaGenerics.Proofs.HierarchySearch
import JavaGenerics.Proofs.LoadedStores
import JavaGenerics.Proofs.NextParent

/-!
# Where the walk finds what is assignable

A class is assignable to whatever edges lead to, in any order of search.  The walk follows one edge
at each class and never turns back.  Does it arrive wherever assignability says that it could?

* `Checker.walkWithin_arrives` — **in a store in which nothing but interfaces is named as an
  interface, it does**, or else it meets a limit or a wrong number of arguments.
* `Checker.viewAs_eq_none_iff` — so in such a loaded store the walk finds nothing exactly where the
  class is not assignable.
* `Checker.unloadedTask_view` — otherwise it may stop short.  A class that is named as an interface
  but has not been loaded counts as an ordinary class, and toward those the walk follows
  superclasses only.
-/

namespace JavaGenerics

namespace Checker

variable {α : Type} {checker : Checker} {target : ClassId}

/-! ## The walk does not stop short -/

/-- What goes on from a result does not come to nothing, if it does not for any value. -/
lemma bind_ne_none {q : Query α} {next : α → Query (Option Bindings)}
    (h : ∀ a, checker.answer q = .ok a → checker.answer (next a) ≠ .ok none) :
    checker.answer (q >>= next) ≠ .ok none := by
  rw [answer_bind]
  cases hq : checker.answer q with
  | ok a => exact h a hq
  | error e => simp

/-- A walk from below the target does not come to nothing. -/
def Arrives (checker : Checker) (walk : WalkDown) (target : ClassId) : Prop :=
  ∀ (subject : Ty) (id : ClassId) (map : Bindings), subject.rawClass? = some id →
    checker.store.Reference id → checker.store.Below id target →
    checker.answer (walk subject target map) ≠ .ok none

section Rules

variable (hkinds : checker.store.Kinded) (htarget : checker.isPrimitive target = false)
  {walk : WalkDown} (hwalk : checker.Arrives walk target)

include hkinds htarget hwalk

lemma walkParent_arrives {id : ClassId} (map : Bindings) (hid : checker.store.Reference id)
    (hne : id ≠ target) (hbelow : checker.store.Below id target) :
    checker.answer (checker.walkParent walk id target map) ≠ .ok none := by
  rw [walkParent, answer_bind, answer_parentToward]
  rcases hkinds.nextToward_cases hid.1 htarget hne hbelow with
    ⟨hnone, -⟩ | ⟨edge, parent, hleads, hnext⟩
  · rw [hnone]
    simp
  · rw [hnext, ok_bind]
    exact hwalk edge parent map hleads.raw hleads.reference hleads.below

lemma walkClass_arrives {id : ClassId} (map : Bindings) (hid : checker.store.Reference id)
    (hbelow : checker.store.Below id target) :
    checker.answer (checker.walkClass walk id target map) ≠ .ok none := by
  obtain ⟨converts, hconverts, hiff⟩ := answer_classConverts hkinds.nominal hid.1 hid.2 htarget
  obtain rfl := hiff.mpr hbelow
  have hprim : checker.store.wellKnown.primitive? id = none := by
    simpa [WellKnown.isPrimitive] using hid.2
  simp only [walkClass, answer_bind, hconverts, ok_bind, if_true, hprim, answer_ite]
  split
  · simp
  · rename_i hne
    exact walkParent_arrives hkinds htarget hwalk map hid hne hbelow

lemma walkApplied_arrives (fuel : Nat) {raw : ClassId} (args : List Ty) (owner : Option Ty)
    (map : Bindings) (hraw : checker.store.Reference raw)
    (hbelow : checker.store.Below raw target) :
    checker.answer (checker.walkApplied walk fuel raw args owner target map) ≠ .ok none := by
  obtain ⟨converts, hconverts, hiff⟩ := answer_classConverts hkinds.nominal hraw.1 hraw.2 htarget
  obtain rfl := hiff.mpr hbelow
  rw [walkApplied]
  refine bind_ne_none fun converts' hconverts' => ?_
  rw [hconverts, Except.ok.injEq] at hconverts'
  subst hconverts'
  rw [if_pos rfl]
  refine bind_ne_none fun before _ => bind_ne_none fun edges _ => ?_
  rw [answer_ite]
  split
  · simp
  · refine bind_ne_none fun bound _ => ?_
    rw [answer_ite]
    split
    · simp
    · rename_i hne
      exact walkParent_arrives hkinds htarget hwalk bound hraw hne hbelow

end Rules

/-- **A walk arrives at whatever its subject is below**, unless it meets an error. -/
theorem walkWithin_arrives (hkinds : checker.store.Kinded)
    (htarget : checker.isPrimitive target = false) : ∀ fuel : Nat,
    checker.Arrives (checker.walkWithin fuel) target
  | 0 => fun _ _ _ _ _ _ => by simp [walkWithin]
  | fuel + 1 => by
    intro subject id map hraw hid hbelow
    have hwalk := walkWithin_arrives hkinds htarget fuel
    simp only [walkWithin, walkStep]
    cases subject with
    | cls id' =>
        obtain rfl := Option.some.inj hraw
        exact walkClass_arrives hkinds htarget hwalk map hid hbelow
    | applied raw args owner =>
        obtain rfl := Option.some.inj hraw
        exact walkApplied_arrives hkinds htarget hwalk fuel args owner map hid hbelow
    | _ => simp [Ty.rawClass?] at hraw

/-! ## Loaded stores -/

/-- **In a loaded store the walk finds nothing exactly where the class is not assignable**, provided
that interfaces alone are named as interfaces, and that no primitive is named as a supertype. -/
theorem viewAs_eq_none_iff {store : Store} (hloaded : store.Loaded)
    (hinterfaces : ∀ id decl, store.class? id = some decl → ∀ edge ∈ decl.interfaces,
      ∀ parent, edge.rawClass? = some parent → store.kindOf? parent = some .interface)
    (hprimitives : ∀ id parent, store.Extends id parent →
      store.wellKnown.isPrimitive parent = false)
    (limits : Limits) {id target : ClassId} (hid : store.Reference id)
    (htarget : store.wellKnown.isPrimitive target = false) :
    let checker : Checker := { store := store, limits := limits }
    checker.answer (checker.viewAs (.cls id) target .empty) = .ok none ↔
      checker.answer (checker.assignable (some (.cls id)) (.cls target) none) = .ok false := by
  intro checker
  have hlinked := hloaded.linked
  have hkinds : store.Kinded :=
    { object_known := hlinked.object_known
      supertypes := fun id decl hdecl edge hedge => by
        obtain ⟨parent, hraw, hparent⟩ := hlinked.nominal id decl hdecl edge hedge
        exact ⟨parent, hraw, hparent, hprimitives id parent (.of_mem edge hdecl hedge hraw)⟩
      interfaces_kind := hinterfaces
      interface_top := hlinked.interface_top }
  have hprim : checker.isPrimitive target = false := htarget
  have harrives : checker.Arrives (checker.walkWithin checker.fuel) target :=
    walkWithin_arrives hkinds hprim checker.fuel
  have hanswer : ∃ converts, checker.answer (checker.classConverts id target) = .ok converts ∧
      (converts = true ↔ store.Below id target) :=
    answer_classConverts hkinds.nominal hid.1 hid.2 htarget
  obtain ⟨converts, hconverts, hiff⟩ := hanswer
  rw [answer_assignable_cls, hconverts]
  cases converts with
  | true =>
      have hfound := harrives (.cls id) id .empty rfl hid (hiff.mp rfl)
      simpa [viewAs] using hfound
  | false => simp [viewAs, fuel, walkWithin, walkStep, walkClass, hconverts]

end Checker

/-! ## A class and the interface it names -/

open Loading

namespace Store

/-- The signature of an interface with nothing above it. -/
def taskSig : ClassSig where
  params := []
  superclass := .mk ["java", "lang"] [.mk "Object" []]
  interfaces := []

/-- The signature of a class that implements it. -/
def jobSig : ClassSig where
  params := []
  superclass := .mk ["java", "lang"] [.mk "Object" []]
  interfaces := [.mk ["com", "example"] [.mk "Task" []]]

/-- The collection classes with the class loaded, and what it names not yet. -/
def withJob : Store :=
  (runOn (Loader.loadClass "com.example.Job" .ordinary jobSig) collections).2

/-- The collection classes with the interface loaded before the class. -/
def withTask : Store :=
  (runOn (Loader.loadClass "com.example.Job" .ordinary jobSig)
    (runOn (Loader.loadClass "com.example.Task" .interface taskSig) collections).2).2

lemma withJob_loaded : withJob.Loaded :=
  .load _ _ _ (Or.inl rfl) .stock

lemma withTask_loaded : withTask.Loaded :=
  .load _ _ _ (Or.inl rfl) (.load _ _ _ (Or.inr rfl) .stock)

end Store

namespace Checker

/-! The kernel loads the classes anew for every closed statement about such a store, so what is
checked of each store is checked in one go. -/

lemma withTask_checks :
    let checker : Checker := { store := .withTask }
    Store.withTask.isRegular = true ∧ Store.withTask.kindOf? ⟨33⟩ = some .interface ∧
      (Store.withTask.class? ⟨34⟩).isSome = true ∧
      Store.withTask.wellKnown.isPrimitive ⟨34⟩ = false ∧
      Store.withTask.wellKnown.isPrimitive ⟨33⟩ = false ∧
      checker.answer (checker.assignable (some (.cls ⟨34⟩)) (.cls ⟨33⟩) none) = .ok true := by
  decide +kernel

lemma withJob_checks :
    let checker : Checker := { store := .withJob }
    Store.withJob.kindOf? ⟨34⟩ = some .ordinary ∧
      (Store.withJob.class? ⟨33⟩).isSome = true ∧
      Store.withJob.wellKnown.isPrimitive ⟨33⟩ = false ∧
      Store.withJob.wellKnown.isPrimitive ⟨34⟩ = false ∧
      checker.answer (checker.assignable (some (.cls ⟨33⟩)) (.cls ⟨34⟩) none) = .ok true := by
  decide +kernel

/-- Where the interface has been loaded first, the walk from the class finds it. -/
theorem loadedTask_view :
    let checker : Checker := { store := .withTask }
    Store.withTask.kindOf? ⟨33⟩ = some .interface ∧
      checker.answer (checker.assignable (some (.cls ⟨34⟩)) (.cls ⟨33⟩) none) = .ok true ∧
      checker.answer (checker.viewAs (.cls ⟨34⟩) ⟨33⟩ .empty) ≠ .ok none := by
  intro checker
  obtain ⟨hregular, hkind, hknown, hjob, htask, hassignable⟩ := withTask_checks
  have hreg : Store.withTask.Regular := .of_isRegular hregular
  have hprimitives : ∀ id parent, Store.withTask.Extends id parent →
      Store.withTask.wellKnown.isPrimitive parent = false := by
    rintro id parent ⟨decl, hdecl, edge, hedge, hraw⟩
    exact (hreg.fits hdecl hedge hraw).2.1.2
  have hiff := viewAs_eq_none_iff Store.withTask_loaded hreg.interfaces_kind hprimitives {}
    ⟨Option.isSome_iff_exists.mp hknown, hjob⟩ htask
  refine ⟨hkind, hassignable, fun hnone => ?_⟩
  have hfalse := hiff.mp hnone
  rw [hassignable] at hfalse
  exact absurd hfalse (by simp)

/-- Where the interface has only been named, the class is assignable to it, and the walk stops at
the superclass. -/
theorem unloadedTask_view :
    let checker : Checker := { store := .withJob }
    Store.withJob.Loaded ∧ Store.withJob.kindOf? ⟨34⟩ = some .ordinary ∧
      Store.withJob.Reference ⟨33⟩ ∧ Store.withJob.wellKnown.isPrimitive ⟨34⟩ = false ∧
      checker.answer (checker.assignable (some (.cls ⟨33⟩)) (.cls ⟨34⟩) none) = .ok true ∧
      checker.answer (checker.viewAs (.cls ⟨33⟩) ⟨34⟩ .empty) = .ok none := by
  intro checker
  obtain ⟨hkind, hknown, hjob, htask, hassignable⟩ := withJob_checks
  have hreference : Store.withJob.Reference ⟨33⟩ := ⟨Option.isSome_iff_exists.mp hknown, hjob⟩
  exact ⟨Store.withJob_loaded, hkind, hreference, htask, hassignable, rfl⟩

end Checker

end JavaGenerics
