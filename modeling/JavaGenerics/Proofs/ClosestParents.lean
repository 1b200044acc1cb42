import JavaGenerics.Proofs.HierarchySearch
import JavaGenerics.Proofs.RegularCheck
import JavaGenerics.Proofs.NextParent

/-!
# The closest parent

Where edges lead in circles, a walk that picks any edge toward its target may go round and round.
What can be said of the edge that it does pick?  That the target is still ahead, on every layered
store; and where interfaces lead to it, that the pick is the last of those above all it replaced.

* `Layered.nextToward_of_leading` — toward an interface, one of the interfaces that lead there is
  picked, and nothing behind it surpasses it.
* `Checker.parentToward_progress` — **the parent to follow toward a class is there, is one of those
  declared, and is assignable to that class.**
* `Checker.roundabout_progress` — the same for two interfaces above one another.
-/

namespace JavaGenerics

open Relation

namespace Store

variable {store : Store}

/-- **Where interfaces lead to the target, one of them is picked**, and none of those behind it that
lead there too is above it. -/
lemma Layered.nextToward_of_leading (hlayers : store.Layered) {id target : ClassId}
    {decl : ClassDecl} (hdecl : store.class? id = some decl) (htarget : store.Reference target)
    (hkind : store.kindOf? target = some .interface)
    (hleading : ∃ edge ∈ decl.interfaces, ∃ parent, edge.rawClass? = some parent ∧
      store.Below parent target) :
    ∃ edge parent earlier later, store.nextToward id target = .ok (some edge) ∧
      edge.rawClass? = some parent ∧ decl.interfaces = earlier ++ edge :: later ∧
        store.Unsurpassed target parent later := by
  have hnominal : ∀ edge ∈ decl.interfaces,
      ∃ parent, edge.rawClass? = some parent ∧ store.Reference parent :=
    fun edge hedge => hlayers.supertypes id decl hdecl edge (mem_supertypes.mpr (Or.inr hedge))
  obtain ⟨outcome, hchoice, hchosen⟩ := Checker.answer_interfaceToward { store := store }
    hlayers.nominal id target htarget.2 decl.interfaces none hnominal (by simp)
  rw [hlayers.nextToward_of_interface hdecl hkind, hchoice, ok_bind]
  cases outcome with
  | none =>
      obtain ⟨edge, hedge, parent, hraw, hbelow⟩ := hleading
      exact absurd hbelow ((hchosen.none rfl).2 edge hedge parent hraw)
  | some edge =>
      obtain ⟨parent, hraw, -, ⟨hnone, -⟩ | ⟨earlier, later, hsplit, hlast⟩⟩ :=
        hchosen.some edge rfl
      · exact absurd hnone (by simp)
      · exact ⟨edge, parent, earlier, later, rfl, hraw, hsplit, hlast⟩

end Store

namespace Checker

variable {checker : Checker}

/-- Edges lead to whatever the search finds, short of the class itself and of `Object`. -/
lemma path_of_leadsTo {id target : ClassId} (hne : id ≠ target)
    (hobject : target ≠ checker.store.wellKnown.object)
    (h : checker.answer (checker.leadsTo id target) = .ok true) :
    TransGen checker.store.Extends id target := by
  have hfound := found_leadsTo checker id hobject
  rw [h] at hfound
  exact (reflTransGen_iff_eq_or_transGen.mp hfound).resolve_left (Ne.symm hne)

section Converts

variable (hlayers : checker.store.Layered) {id target : ClassId}
  (hid : checker.store.Reference id) (htarget : checker.isPrimitive target = false)

include hlayers hid htarget

/-- On a layered store a class converts to those that it is below. -/
lemma converts_iff_below :
    checker.answer (checker.classConverts id target) = .ok true ↔
      checker.store.Below id target := by
  obtain ⟨converts, hconverts, hiff⟩ := answer_classConverts hlayers.nominal hid.1 hid.2 htarget
  rw [hconverts, Except.ok.injEq, hiff]

/-- And on such a store it is certain that it does not convert to the others. -/
lemma not_converts_of_not_below (h : ¬ checker.store.Below id target) :
    checker.answer (checker.classConverts id target) = .ok false := by
  obtain ⟨converts, hconverts, hiff⟩ := answer_classConverts hlayers.nominal hid.1 hid.2 htarget
  cases converts with
  | false => exact hconverts
  | true => exact absurd (hiff.mp rfl) h

end Converts

/--
  **The parent that is followed always makes progress.**

  On a layered store, with circles or without: where a class that is no primitive is assignable to
  another one, neither itself nor `Object`, there is a parent to follow.  It is one of the declared
  supertypes, and it is assignable to the target.

  Toward an interface that declared interfaces lead to, the parent is one of these, and none of
  those behind it that lead there is a supertype of it.
-/
theorem parentToward_progress (checker : Checker) (hlayers : checker.store.Layered)
    {id target : ClassId} (hid : checker.isPrimitive id = false)
    (htarget : checker.isPrimitive target = false) (hne : id ≠ target)
    (hobject : target ≠ checker.store.wellKnown.object)
    (hconverts : checker.answer (checker.classConverts id target) = .ok true) :
    ∃ decl edge parent, checker.store.class? id = some decl ∧ edge ∈ decl.edges.supertypes ∧
      edge.rawClass? = some parent ∧
      checker.answer (checker.parentToward id target) = .ok (some edge) ∧
      checker.answer (checker.classConverts parent target) = .ok true ∧
      (checker.store.kindOf? target = some .interface →
        (∃ other ∈ decl.interfaces, ∃ via, other.rawClass? = some via ∧
          checker.answer (checker.classConverts via target) = .ok true) →
        ∃ earlier later, decl.interfaces = earlier ++ edge :: later ∧
          ∀ other ∈ later, ∀ via, other.rawClass? = some via →
            checker.answer (checker.classConverts via target) = .ok true →
            checker.answer (checker.classConverts parent via) = .ok false) := by
  rw [classConverts_eq_leadsTo checker hid htarget] at hconverts
  have hpath := path_of_leadsTo hne hobject hconverts
  obtain ⟨-, ⟨decl, hdecl, -⟩, -⟩ := TransGen.head'_iff.mp hpath
  have hknown : checker.store.Reference target := by
    obtain ⟨last, -, hlast⟩ := TransGen.tail'_iff.mp hpath
    exact ⟨hlayers.nominal.knows_right hlast, htarget⟩
  have hdeclared : ∀ edge ∈ decl.edges.supertypes, ∀ via, edge.rawClass? = some via →
      checker.store.Reference via := by
    intro edge hedge via hraw
    obtain ⟨via', hraw', hvia⟩ := hlayers.supertypes id decl hdecl edge hedge
    rw [hraw, Option.some.injEq] at hraw'
    exact hraw' ▸ hvia
  rcases hlayers.nextToward_cases ⟨decl, hdecl⟩ hknown hne (Or.inr (Or.inr hpath)) with
    ⟨-, habsurd⟩ | ⟨edge, parent, hleads, hnext⟩
  · exact absurd habsurd hobject
  obtain ⟨decl', hdecl', hedge⟩ := hleads.mem
  rw [hdecl, Option.some.injEq] at hdecl'
  subst hdecl'
  refine ⟨decl, edge, parent, hdecl, hedge, hleads.raw, ?_, ?_, fun hkind hleading => ?_⟩
  · rw [answer_parentToward, hnext]
  · exact (converts_iff_below hlayers hleads.reference htarget).mpr hleads.below
  obtain ⟨edge', parent', earlier, later, hnext', hraw', hsplit, hlast⟩ :=
    hlayers.nextToward_of_leading hdecl hknown hkind <| by
      obtain ⟨other, hother, via, hraw, hvia⟩ := hleading
      have hreference := hdeclared other (Store.mem_supertypes.mpr (Or.inr hother)) via hraw
      exact ⟨other, hother, via, hraw, (converts_iff_below hlayers hreference htarget).mp hvia⟩
  -- Both say what is picked, so they speak of the same edge.
  obtain rfl : edge = edge' := by simpa [hnext] using hnext'
  obtain rfl : parent = parent' := Option.some.inj (hleads.raw.symm.trans hraw')
  refine ⟨earlier, later, hsplit, fun other hother via hraw hvia => ?_⟩
  have hreference : checker.store.Reference via :=
    hdeclared other (Store.mem_supertypes.mpr (Or.inr (by simp [hsplit, hother]))) via hraw
  exact not_converts_of_not_below hlayers hleads.reference hreference.2
    (hlast other hother via hraw ((converts_iff_below hlayers hreference htarget).mp hvia))

end Checker

/-! ## Two interfaces above one another -/

namespace Store

/-- Whether every declared supertype is a class of the store that is no primitive, every interface
is declared as one, and no interface has a superclass. -/
def isLayered (store : Store) : Bool :=
  store.classes.toList.all fun decl =>
    (decl.edges.supertypes.all fun edge => edge.rawClass?.any fun parent =>
      (store.class? parent).isSome && !store.wellKnown.isPrimitive parent) &&
      decl.interfaces.all (store.hasKind .interface) &&
      (decl.kind != .interface || decl.superclass.isNone)

lemma Layered.of_isLayered {store : Store} (h : store.isLayered = true) : store.Layered := by
  have hdecls : ∀ id decl, store.class? id = some decl → decl ∈ store.classes.toList :=
    fun id decl hdecl => Array.mem_toList_iff.mpr (Array.mem_of_getElem? hdecl)
  simp only [isLayered, List.all_eq_true, Bool.and_eq_true, Option.any_eq_true, Bool.or_eq_true,
    Bool.not_eq_true', Option.isSome_iff_exists, bne_iff_ne, ne_eq,
    Option.isNone_iff_eq_none] at h
  refine
    { supertypes := fun id decl hdecl => (h decl (hdecls id decl hdecl)).1.1
      interfaces_kind := fun id decl hdecl edge hedge parent hraw =>
        kindOf?_of_hasKind ((h decl (hdecls id decl hdecl)).1.2 edge hedge) hraw
      interface_top := fun id decl hdecl hkind =>
        (h decl (hdecls id decl hdecl)).2.resolve_left (not_not_intro hkind) }

/-- A class that declares two interfaces, the ones below, and another. -/
def both : ClassDecl where
  name := "com.example.Both"
  superclass := some Stock.object
  interfaces := [.cls ⟨23⟩, .cls ⟨24⟩, Stock.cloneable]

/-- The core classes with two interfaces, each of which extends the other, and a class that declares
them both. -/
def roundabout : Store :=
  .ofDeclarations Stock.wellKnown
    (Stock.coreClasses ++
      [ { name := "com.example.Left", kind := .interface, interfaces := [.cls ⟨24⟩] },
        { name := "com.example.Right", kind := .interface, interfaces := [.cls ⟨23⟩] },
        both ])
    Stock.coreParams

lemma roundabout_layered : roundabout.Layered :=
  .of_isLayered (by decide +kernel)

end Store

namespace Checker

/-- On its way to one of two interfaces above one another, a class that declares both follows the
one it declares last, though it declares its target before. -/
theorem roundabout_progress :
    let checker : Checker := { store := .roundabout }
    checker.store.Layered ∧ checker.isPrimitive ⟨25⟩ = false ∧ checker.isPrimitive ⟨23⟩ = false ∧
      (⟨25⟩ : ClassId) ≠ ⟨23⟩ ∧ (⟨23⟩ : ClassId) ≠ checker.store.wellKnown.object ∧
      checker.answer (checker.classConverts ⟨25⟩ ⟨23⟩) = .ok true ∧
      checker.answer (checker.parentToward ⟨25⟩ ⟨23⟩) = .ok (some (.cls ⟨24⟩)) ∧
      checker.answer (checker.classConverts ⟨24⟩ ⟨23⟩) = .ok true ∧
      ∃ earlier later, Store.both.interfaces = earlier ++ .cls ⟨24⟩ :: later ∧
        ∀ other ∈ later, ∀ via, other.rawClass? = some via →
          checker.answer (checker.classConverts via ⟨23⟩) = .ok true →
          checker.answer (checker.classConverts ⟨24⟩ via) = .ok false := by
  intro checker
  have hid : checker.isPrimitive ⟨25⟩ = false := by decide
  have htarget : checker.isPrimitive ⟨23⟩ = false := by decide
  have hne : (⟨25⟩ : ClassId) ≠ ⟨23⟩ := by decide
  have hobject : (⟨23⟩ : ClassId) ≠ checker.store.wellKnown.object := by decide
  have hconverts : checker.answer (checker.classConverts ⟨25⟩ ⟨23⟩) = .ok true := rfl
  have hnext : checker.answer (checker.parentToward ⟨25⟩ ⟨23⟩) = .ok (some (.cls ⟨24⟩)) := rfl
  obtain ⟨decl, edge, parent, hdecl, -, hraw, hparent, hleads, hlast⟩ :=
    parentToward_progress checker Store.roundabout_layered hid htarget hne hobject hconverts
  obtain rfl : Ty.cls ⟨24⟩ = edge := by simpa [hnext] using hparent
  obtain rfl : (⟨24⟩ : ClassId) = parent := Option.some.inj hraw
  obtain rfl : Store.both = decl := Option.some.inj hdecl
  exact ⟨Store.roundabout_layered, hid, htarget, hne, hobject, hconverts, hnext, hleads,
    hlast rfl ⟨.cls ⟨23⟩, .head _, ⟨23⟩, rfl, rfl⟩⟩

end Checker

end JavaGenerics
