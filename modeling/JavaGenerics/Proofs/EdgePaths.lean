import JavaGenerics.Proofs.Walk

/-!
# Along the edges

A walk follows one edge from each class.  What could be found along *any* edges?

* `Store.Sees` — a class with arguments is seen as another class with arguments, along some path of
  edges.  Arguments of edges are written in terms of the parameters of the class below, and
  `Store.assigning` puts in what these stand for.
* `Sees.arity`, `Sees.ground`, `Sees.deepest_le` — whatever is seen takes as many arguments as it
  has parameters, has no variables if the start has none, and **is nested more deeply by no more
  than the written arguments for each class on the path**.
* `Ascent.sees` — the levels of an ascent are seen, so all of this holds of them.
-/

namespace JavaGenerics

open Relation

namespace Store

variable {store : Store}

/-- The class `id` with the arguments `args` is seen, along some path of declared supertypes, as a
class with the arguments found there. -/
inductive Sees (store : Store) (id : ClassId) (args : List Ty) : ClassId → List Ty → Prop
  | self : Sees store id args id args
  | step {middle parent : ClassId} {found : List Ty} {decl : ClassDecl} {edge : Ty}
      (h : Sees store id args middle found) (hdecl : store.class? middle = some decl)
      (hedge : edge ∈ decl.edges.supertypes) (hraw : edge.rawClass? = some parent) :
      Sees store id args parent (edge.args.map (Ty.subst (store.assigning middle found)))

namespace Sees

variable {id target : ClassId} {args found : List Ty}

/-- What is seen from what is seen is seen. -/
theorem trans {middle : ClassId} {between : List Ty} (h : store.Sees id args middle between)
    (h' : store.Sees middle between target found) : store.Sees id args target found := by
  induction h' with
  | self => exact h
  | step _ hdecl hedge hraw ih => exact ih.step hdecl hedge hraw

theorem path (h : store.Sees id args target found) : ReflTransGen store.Extends id target := by
  induction h with
  | self => exact .refl
  | step _ hdecl hedge hraw ih => exact ih.tail (.of_mem _ hdecl hedge hraw)

variable (hwalk : store.Walkable) (hlength : args.length = (store.paramsOf id).length)

include hwalk hlength

theorem arity (h : store.Sees id args target found) :
    found.length = (store.paramsOf target).length := by
  induction h with
  | self => exact hlength
  | step _ hdecl hedge hraw _ =>
      rw [List.length_map]
      exact (hwalk.fits hdecl hedge hraw).2.2.2

omit hlength in
/-- The variables of an edge stand for arguments of the class below. -/
lemma exists_assigning_edge {middle : ClassId} {between : List Ty} {decl : ClassDecl} {edge : Ty}
    (harity : between.length = (store.paramsOf middle).length)
    (hdecl : store.class? middle = some decl) (hedge : edge ∈ decl.edges.supertypes)
    {v : TypeVarId} (hv : v ∈ Ty.varsAll edge.args) :
    ∃ ty, store.assigning middle between v = some ty ∧ ty ∈ between := by
  have hown := hwalk.own_vars middle decl hdecl edge hedge v hv
  obtain ⟨ty, hty⟩ := exists_assigning harity (paramsOf_eq hdecl ▸ hown)
  exact ⟨ty, hty, (mem_of_assigning hty).2⟩

/-- Without variables at the start there are none anywhere. -/
theorem ground (hground : Ty.varsAll args = []) (h : store.Sees id args target found) :
    Ty.varsAll found = [] := by
  induction h with
  | self => exact hground
  | step hbetween hdecl hedge _ ih =>
      rw [← Ty.substAll_eq_map]
      refine Ty.varsAll_substAll _ fun v hv => ?_
      obtain ⟨ty, hty, hmem⟩ :=
        exists_assigning_edge hwalk (hbetween.arity hwalk hlength) hdecl hedge hv
      exact ⟨ty, hty, Ty.varsAll_eq_nil.mp ih ty hmem⟩

end Sees

end Store

/-! ## Nesting -/

namespace Ty

mutual

/-- What is put in for variables adds its nesting at most. -/
theorem nesting_subst_le {σ : TypeVarId → Option Ty} {n : Nat}
    (hσ : ∀ v t, σ v = some t → t.nesting ≤ n) : ∀ ty : Ty, (subst σ ty).nesting ≤ ty.nesting + n
  | .cls _ => Nat.zero_le _
  | .applied _ args owner => by
    have hargs := nestingAll_substAll_le hσ args
    have howner := nestingOwner_substOwner_le hσ owner
    simp only [subst, nesting]
    omega
  | .var v => by
    cases hv : σ v with
    | none => simp [subst, hv, nesting]
    | some t => simpa [subst, hv, nesting] using hσ v t hv
  | .wildcard upper lower => by
    have hupper := nestingAll_substAll_le hσ upper
    have hlower := nestingAll_substAll_le hσ lower
    simp only [subst, nesting]
    omega
  | .array component => by
    have hcomponent := nesting_subst_le hσ component
    simp only [subst, nesting]
    omega

theorem nestingAll_substAll_le {σ : TypeVarId → Option Ty} {n : Nat}
    (hσ : ∀ v t, σ v = some t → t.nesting ≤ n) :
    ∀ types : List Ty, nestingAll (substAll σ types) ≤ nestingAll types + n
  | [] => Nat.zero_le _
  | ty :: rest => by
    have hty := nesting_subst_le hσ ty
    have hrest := nestingAll_substAll_le hσ rest
    simp only [substAll, nestingAll]
    omega

theorem nestingOwner_substOwner_le {σ : TypeVarId → Option Ty} {n : Nat}
    (hσ : ∀ v t, σ v = some t → t.nesting ≤ n) :
    ∀ owner : Option Ty, nestingOwner (substOwner σ owner) ≤ nestingOwner owner + n
  | none => Nat.zero_le _
  | some owner => by
    have howner := nesting_subst_le hσ owner
    simp only [substOwner, nestingOwner]
    omega

end

end Ty

namespace Store

variable {store : Store}

lemma mem_edgeArgs {id : ClassId} {decl : ClassDecl} (hdecl : store.class? id = some decl)
    {edge : Ty} (hedge : edge ∈ decl.edges.supertypes) {arg : Ty} (harg : arg ∈ edge.args) :
    arg ∈ store.edgeArgs :=
  List.mem_flatMap.mpr ⟨decl, Array.mem_toList_iff.mpr (Array.mem_of_getElem? hdecl),
    List.mem_flatMap.mpr ⟨edge, hedge, harg⟩⟩

/-- **Each class on the way adds the nesting of the written arguments at most**, and its height pays
for it. -/
theorem Sees.deepest_le (hwalk : store.Walkable) {id target : ClassId} {args found : List Ty}
    (h : store.Sees id args target found) :
    Ty.deepest found + store.height target * Ty.deepest store.edgeArgs ≤
      Ty.deepest args + store.height id * Ty.deepest store.edgeArgs := by
  induction h with
  | self => exact Nat.le_refl _
  | @step middle parent found decl edge _ hdecl hedge hraw ih =>
      have hlt := hwalk.height_lt (Extends.of_mem edge hdecl hedge hraw)
      have hmul : (store.height parent + 1) * Ty.deepest store.edgeArgs ≤
          store.height middle * Ty.deepest store.edgeArgs := Nat.mul_le_mul_right _ hlt
      rw [Nat.add_mul, Nat.one_mul] at hmul
      have hdeepest : Ty.deepest (edge.args.map (Ty.subst (store.assigning middle found))) ≤
          Ty.deepest store.edgeArgs + Ty.deepest found := by
        refine Ty.deepest_le fun ty hty => ?_
        obtain ⟨arg, harg, rfl⟩ := List.mem_map.mp hty
        refine (Ty.nesting_subst_le (fun v t hv => ?_) arg).trans
          (Nat.add_le_add_right (Ty.nesting_le_deepest (mem_edgeArgs hdecl hedge harg)) _)
        exact Ty.nesting_le_deepest (mem_of_assigning hv).2
      omega

/-! ## Ascents follow edges -/

/-- **Every level of an ascent is seen.** -/
theorem Ascent.sees (hwalk : store.Walkable) {target id : ClassId} {args : List Ty}
    {levels : List (ClassId × List Ty)} (h : store.Ascent target id args levels)
    (htarget : store.wellKnown.isPrimitive target = false) (hid : store.Knows id)
    (hbelow : store.Below id target) :
    ∀ level ∈ levels, store.Sees id args level.1 level.2 := by
  induction h with
  | arrive args =>
      intro level hlevel
      rw [List.mem_singleton] at hlevel
      exact hlevel ▸ .self
  | stop =>
      intro level hlevel
      rw [List.mem_singleton] at hlevel
      exact hlevel ▸ .self
  | step hne hnext hraw hrest ih =>
      obtain ⟨decl, hdecl, hedge, hfits, hparent⟩ :=
        hwalk.of_nextToward_raw hid htarget hne hbelow hnext hraw
      intro level hlevel
      rcases List.mem_cons.mp hlevel with rfl | hlevel
      · exact .self
      · exact (Sees.self.step hdecl hedge hraw).trans (ih hfits.2.1.1 hparent level hlevel)

end Store

end JavaGenerics
