import Mathlib.Logic.Relation
import JavaGenerics.Proofs.SimultaneousSubstitution

/-!
# Chains of variables

A variable may be bound to another one, and that to a third.  Whatever such a chain is followed for,
it comes down to where it ends.

* `Bindings.Links` — one step along a chain.
* `Checker.exists_last_of_replaceVar` — **a variable is replaced by the end of its chain**: by a
  type that is no variable, or by a variable that is not bound.
* `Checker.eq_var_iff_of_replaceVar` — so what it is replaced by can be told from the steps alone.
-/

namespace JavaGenerics

open Relation

/-- The first variable is bound to the second. -/
def Bindings.Links (map : Bindings) (v w : TypeVarId) : Prop :=
  map.get? v = some (.var w)

/-- There is no way on from the end of a chain. -/
def ChainEnd.Final (map : Bindings) (start : TypeVarId) : ChainEnd → Prop
  | .unbound => map.get? start = none
  | .ended ty => ∃ last, ReflTransGen map.Links start last ∧ map.get? last = some ty ∧ ty.var? = none
  | .loose last => ReflTransGen map.Links start last ∧ map.get? last = none

/-- What is bound to nothing is at the end of every chain that it is on. -/
lemma Bindings.eq_of_links {map : Bindings} {v w : TypeVarId} (h : ReflTransGen map.Links v w)
    (hv : ∀ next, map.get? v ≠ some (.var next)) : v = w := by
  rcases h.cases_head with rfl | ⟨next, hnext, -⟩
  · rfl
  · exact absurd hnext (hv next)

namespace Checker

variable (checker : Checker)

lemma final_followFrom (map : Bindings) (start : TypeVarId) (hops : Nat) (visited : List TypeVarId)
    (current : TypeVarId) {chain : ChainEnd} (hpath : ReflTransGen map.Links start current)
    (h : checker.followFrom map start hops visited current = .ok chain) :
    chain.Final map start := by
  fun_induction checker.followFrom map start hops visited current with
  | case1 hops visited current hget =>
      obtain rfl := Except.ok.inj h
      split
      · rename_i hstart
        exact hstart ▸ hget
      · exact ⟨hpath, hget⟩
  | case2 => cases h
  | case3 => cases h
  | case4 _ _ _ hget _ _ ih => exact ih (hpath.tail hget) h
  | case5 _ _ _ ty hvar hget =>
      obtain rfl := Except.ok.inj h
      refine ⟨_, hpath, hget, ?_⟩
      cases ty with
      | var next => exact (hvar next rfl).elim
      | _ => rfl

/-- **A variable is replaced by the end of its chain.** -/
lemma exists_last_of_replaceVar {map : Bindings} {var : TypeVarId} {ty : Ty}
    (h : checker.replaceVar var map = .ok ty) :
    ∃ last, ReflTransGen map.Links var last ∧
      (map.get? last = none ∧ ty = .var last ∨ map.get? last = some ty ∧ ty.var? = none) := by
  unfold replaceVar at h
  obtain ⟨chain, hfollow, hreplaced⟩ := bind_eq_ok.mp h
  have hfinal := checker.final_followFrom map var _ _ var .refl hfollow
  cases chain with
  | unbound => exact ⟨var, .refl, Or.inl ⟨hfinal, (Except.ok.inj hreplaced).symm⟩⟩
  | ended ended =>
      obtain rfl := Except.ok.inj hreplaced
      obtain ⟨last, hpath, hlast⟩ := hfinal
      exact ⟨last, hpath, Or.inr hlast⟩
  | loose last => exact ⟨last, hfinal.1, Or.inl ⟨hfinal.2, (Except.ok.inj hreplaced).symm⟩⟩

/-- A variable is replaced by another one, or by itself, exactly if its chain ends there. -/
lemma eq_var_iff_of_replaceVar {map : Bindings} {var : TypeVarId} {ty : Ty}
    (h : checker.replaceVar var map = .ok ty) (last : TypeVarId) :
    ty = .var last ↔ ReflTransGen map.Links var last ∧ map.get? last = none := by
  obtain ⟨found, hpath, hend⟩ := checker.exists_last_of_replaceVar h
  constructor
  · rintro rfl
    rcases hend with ⟨hnone, hvar⟩ | ⟨-, hvar⟩
    · obtain rfl := Ty.var.inj hvar
      exact ⟨hpath, hnone⟩
    · cases hvar
  · rintro ⟨hpath', hnone⟩
    have hunique : Relator.RightUnique map.Links := fun v w w' hw hw' =>
      Ty.var.inj (Option.some.inj (hw.symm.trans hw'))
    have hlast : ∀ next, map.get? last ≠ some (.var next) := by simp [hnone]
    have hfound : ∀ next, map.get? found ≠ some (.var next) := by
      rcases hend with ⟨hnone', -⟩ | ⟨hsome, hvar⟩
      · simp [hnone']
      · rintro next hnext
        rw [hsome, Option.some.injEq] at hnext
        simp [hnext, Ty.var?] at hvar
    have hsame : found = last := by
      rcases hpath.total_of_right_unique hunique hpath' with hon | hback
      · exact Bindings.eq_of_links hon hfound
      · exact (Bindings.eq_of_links hback hlast).symm
    rcases hend with ⟨-, hvar⟩ | ⟨hsome, -⟩
    · exact hsame ▸ hvar
    · rw [hsame, hnone] at hsome
      cases hsome

/-- A variable that is bound to another one, which is not bound, is replaced by that, if chains may
be followed at all. -/
lemma replaceVar_of_loose {map : Bindings} {var last : TypeVarId}
    (hchain : 0 < checker.limits.maxVariableChain) (hvar : map.get? var = some (.var last))
    (hlast : map.get? last = none) : checker.replaceVar var map = .ok (.var last) := by
  have hne : last ≠ var := by
    rintro rfl
    simp [hlast] at hvar
  obtain ⟨hops, hhops⟩ := Nat.exists_eq_succ_of_ne_zero (Nat.ne_of_gt hchain)
  simp [replaceVar, follow, followFrom, hhops, hvar, hlast, hne]

end Checker

end JavaGenerics
