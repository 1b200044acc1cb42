import JavaGenerics.Subtyping
import JavaGenerics.Proofs.Reachability

/-!
# Conversion between classes on any hierarchy

What does it mean that one class converts to another?  Between classes that are no primitives it is
the search of `Checker.leadsTo`, and the search is right on every store (`Checker.found_leadsTo`).

* `Checker.classConverts_eq_leadsTo` — between classes that are no primitives, conversion is the
  search, and `Checker.answer_assignable_cls` says that assignability is conversion.
* `Checker.classConverts_trans` — **conversion is transitive**, where supertypes are known classes
  and `Object` has none.
-/

namespace JavaGenerics

open Relation

namespace Checker

variable {checker : Checker}

/-! ## Conversion is the search -/

/-- Between classes that are no primitives, conversion is `leadsTo`. -/
lemma classConverts_eq_leadsTo (checker : Checker) {source target : ClassId}
    (hsource : checker.isPrimitive source = false) (htarget : checker.isPrimitive target = false) :
    checker.classConverts source target = checker.leadsTo source target := by
  have hsource' : checker.store.wellKnown.primitive? source = none := by
    simpa [isPrimitive, WellKnown.isPrimitive] using hsource
  have htarget' : checker.store.wellKnown.primitive? target = none := by
    simpa [isPrimitive, WellKnown.isPrimitive] using htarget
  by_cases hself : source = target
  · simp [classConverts, leadsTo, hself]
  · simp [classConverts, hself, hsource', htarget']

/-- Whether a class is assignable to another is whether it converts. -/
lemma answer_assignable_cls (checker : Checker) (id target : ClassId) (context : Option Bindings) :
    checker.answer (checker.assignable (some (.cls id)) (.cls target) context) =
      checker.answer (checker.classConverts id target) := by
  simp only [assignable, fuel, assignWithin, assignStep, answer_ite]
  split
  · rename_i hsame
    obtain rfl : id = target := beq_iff_eq.mp (show (id == target) = true from hsame)
    simp [classConverts]
  · rfl

/-- Nothing but `Object` is above `Object`, if it declares no supertypes. -/
lemma eq_object_of_leadsTo {target : ClassId}
    (htop : ∀ decl, checker.store.class? checker.store.wellKnown.object = some decl →
      decl.edges.supertypes = [])
    (h : checker.answer (checker.leadsTo checker.store.wellKnown.object target) = .ok true) :
    target = checker.store.wellKnown.object := by
  by_contra hne
  have hpath : ReflTransGen checker.store.Extends checker.store.wellKnown.object target := by
    have hfound := found_leadsTo checker checker.store.wellKnown.object hne
    rwa [h] at hfound
  rcases hpath.cases_head with heq | ⟨next, ⟨decl, hdecl, edge, hedge, -⟩, -⟩
  · exact hne heq.symm
  · rw [htop decl hdecl] at hedge
    exact absurd hedge (by simp)

/-- In a nominal store with nothing above `Object`, conversion between classes that are no
primitives is transitive. -/
lemma classConverts_trans (hnom : checker.store.Nominal)
    (htop : ∀ decl, checker.store.class? checker.store.wellKnown.object = some decl →
      decl.edges.supertypes = []) {a b c : ClassId} (ha : checker.isPrimitive a = false)
    (hb : checker.isPrimitive b = false) (hc : checker.isPrimitive c = false)
    (hab : checker.answer (checker.classConverts a b) = .ok true)
    (hbc : checker.answer (checker.classConverts b c) = .ok true) :
    checker.answer (checker.classConverts a c) = .ok true := by
  rw [classConverts_eq_leadsTo checker ha hb] at hab
  rw [classConverts_eq_leadsTo checker hb hc] at hbc
  rw [classConverts_eq_leadsTo checker ha hc]
  by_cases hobject : c = checker.store.wellKnown.object
  · by_cases hself : a = c
    · simp [leadsTo, hself]
    · simp [leadsTo, hobject, ha]
  have hfirst : ReflTransGen checker.store.Extends a b := by
    have hne : b ≠ checker.store.wellKnown.object := by
      rintro rfl
      exact hobject (eq_object_of_leadsTo htop hbc)
    have hfound := found_leadsTo checker a hne
    rwa [hab] at hfound
  have hsecond : ReflTransGen checker.store.Extends b c := by
    have hfound := found_leadsTo checker b hobject
    rwa [hbc] at hfound
  have hpath := hfirst.trans hsecond
  rcases hpath.cases_head with rfl | ⟨next, ⟨decl, hdecl, -⟩, -⟩
  · simp [leadsTo]
  · obtain ⟨b, hb, hiff⟩ := (found_leadsTo checker a hobject).of_nominal hnom ⟨decl, hdecl⟩
    rw [hb, hiff.mpr hpath]

end Checker

end JavaGenerics
