import JavaGenerics.Proofs.BuriedParameters
import JavaGenerics.Proofs.Views

/-!
# What a class passes up

`ArrayList<E>` passes `E` up to `Collection`, and `String` passes itself up to `Comparable`.  Along
the edges that are chosen toward a target, each class puts what it passes to the next one into what
that one passes on.

* `Ty.subst_subst` — putting types in twice is doing so once.
* `Store.PassedUp` — the arguments the target is reached with, **in terms of the parameters of the
  class at the bottom**; there is nothing of the kind where no edges lead to the target.
* `PassedUp.exists_ascent` — whatever the class is applied to, a way up from it arrives at the
  target with this put into what is passed up.
-/

namespace JavaGenerics

open Relation

/-! ## Substituting twice -/

namespace Ty

/-- What is left to put in once `τ` has been: `σ`, also in what `τ` has put in. -/
def andThen (τ σ : TypeVarId → Option Ty) (v : TypeVarId) : Option Ty :=
  ((τ v).map (subst σ)).or (σ v)

lemma andThen_of_eq_some {τ σ : TypeVarId → Option Ty} {v : TypeVarId} {ty : Ty}
    (h : τ v = some ty) : andThen τ σ v = some (subst σ ty) := by
  simp [andThen, h]

mutual

/-- **Putting types in twice is doing so once.** -/
theorem subst_subst (τ σ : TypeVarId → Option Ty) :
    ∀ ty : Ty, subst σ (subst τ ty) = subst (andThen τ σ) ty
  | .cls _ => rfl
  | .applied _ args owner => by
      simp only [subst, substAll_substAll τ σ args, substOwner_substOwner τ σ owner]
  | .var v => by
      cases hv : τ v with
      | none => simp [subst, andThen, hv]
      | some ty => simp [subst, andThen, hv]
  | .wildcard upper lower => by
      simp only [subst, substAll_substAll τ σ upper, substAll_substAll τ σ lower]
  | .array component => by simp only [subst, subst_subst τ σ component]

theorem substAll_substAll (τ σ : TypeVarId → Option Ty) :
    ∀ types : List Ty, substAll σ (substAll τ types) = substAll (andThen τ σ) types
  | [] => rfl
  | ty :: rest => by simp only [substAll, subst_subst τ σ ty, substAll_substAll τ σ rest]

theorem substOwner_substOwner (τ σ : TypeVarId → Option Ty) :
    ∀ owner : Option Ty, substOwner σ (substOwner τ owner) = substOwner (andThen τ σ) owner
  | none => rfl
  | some owner => by simp only [substOwner, subst_subst τ σ owner]

end

mutual

/-- The variables left are those of what was put in, if something was put in for each. -/
theorem mem_vars_subst {σ : TypeVarId → Option Ty} {w : TypeVarId} :
    ∀ ty : Ty, (∀ v ∈ ty.vars, ∃ t, σ v = some t) → w ∈ (subst σ ty).vars →
      ∃ v t, σ v = some t ∧ w ∈ t.vars
  | .cls _, _, h => by simp [subst, vars] at h
  | .applied _ args owner, hσ, h => by
      simp only [vars, List.mem_append] at hσ
      simp only [subst, vars, List.mem_append] at h
      rcases h with h | h
      · exact mem_varsAll_substAll args (fun v hv => hσ v (.inl hv)) h
      · exact mem_varsOwner_substOwner owner (fun v hv => hσ v (.inr hv)) h
  | .var v, hσ, h => by
      obtain ⟨t, ht⟩ := hσ v (by simp [vars])
      exact ⟨v, t, ht, by simpa [subst, ht] using h⟩
  | .wildcard upper lower, hσ, h => by
      simp only [vars, List.mem_append] at hσ
      simp only [subst, vars, List.mem_append] at h
      rcases h with h | h
      · exact mem_varsAll_substAll upper (fun v hv => hσ v (.inl hv)) h
      · exact mem_varsAll_substAll lower (fun v hv => hσ v (.inr hv)) h
  | .array component, hσ, h => mem_vars_subst component hσ h

theorem mem_varsAll_substAll {σ : TypeVarId → Option Ty} {w : TypeVarId} :
    ∀ types : List Ty, (∀ v ∈ varsAll types, ∃ t, σ v = some t) → w ∈ varsAll (substAll σ types) →
      ∃ v t, σ v = some t ∧ w ∈ t.vars
  | [], _, h => by simp [substAll, varsAll] at h
  | ty :: rest, hσ, h => by
      simp only [varsAll, List.mem_append] at hσ
      simp only [substAll, varsAll, List.mem_append] at h
      rcases h with h | h
      · exact mem_vars_subst ty (fun v hv => hσ v (.inl hv)) h
      · exact mem_varsAll_substAll rest (fun v hv => hσ v (.inr hv)) h

theorem mem_varsOwner_substOwner {σ : TypeVarId → Option Ty} {w : TypeVarId} :
    ∀ owner : Option Ty, (∀ v ∈ varsOwner owner, ∃ t, σ v = some t) →
      w ∈ varsOwner (substOwner σ owner) → ∃ v t, σ v = some t ∧ w ∈ t.vars
  | none, _, h => by simp [substOwner, varsOwner] at h
  | some owner, hσ, h => mem_vars_subst owner hσ h

end

end Ty

namespace Store

variable {store : Store}

/-- A parameter is assigned the argument that stands in its place. -/
lemma assigning_eq_some_iff {id : ClassId} (hnodup : (store.paramsOf id).Nodup) {args : List Ty}
    {v : TypeVarId} {ty : Ty} :
    store.assigning id args v = some ty ↔ (v, ty) ∈ (store.paramsOf id).zip args := by
  rw [assigning]
  generalize store.paramsOf id = params at hnodup
  induction params generalizing args with
  | nil => simp
  | cons param params ih =>
      obtain ⟨hparam, hnodup⟩ := List.nodup_cons.mp hnodup
      cases args with
      | nil => simp
      | cons arg args =>
          simp only [List.zip_cons_cons, List.lookup_cons, List.mem_cons, Prod.mk.injEq]
          by_cases hv : v = param
          · subst hv
            have hforeign : (v, ty) ∉ params.zip args := fun hmem => hparam (List.of_mem_zip hmem).1
            simp [hforeign, eq_comm]
          · simp [beq_eq_false_iff_ne.mpr hv, hv, ih hnodup]

/-- Assigning the arguments of a class to its parameters gives them back. -/
lemma map_subst_assigning_params {id : ClassId} (hnodup : (store.paramsOf id).Nodup)
    {args : List Ty} (hlength : args.length = (store.paramsOf id).length) :
    ((store.paramsOf id).map .var).map (Ty.subst (store.assigning id args)) = args := by
  rw [List.map_map]
  exact map_lookup_zip hnodup hlength

/-! ## Along the chosen edges -/

/-- The arguments with which a target is reached from a class, along the edges that are chosen
toward it, in terms of the parameters of the class. -/
inductive PassedUp (store : Store) (target : ClassId) : ClassId → List Ty → Prop
  | arrive : PassedUp store target target ((store.paramsOf target).map .var)
  | step {id parent : ClassId} {decl : ClassDecl} {edge : Ty} {passed : List Ty} (hne : id ≠ target)
      (hdecl : store.class? id = some decl) (hedge : edge ∈ decl.edges.supertypes)
      (hraw : edge.rawClass? = some parent) (hnext : store.nextToward id target = .ok (some edge))
      (hrest : PassedUp store target parent passed) :
      PassedUp store target id (passed.map (Ty.subst (store.assigning parent edge.args)))

namespace PassedUp

variable {target id : ClassId} {passed : List Ty}

lemma path (h : store.PassedUp target id passed) : ReflTransGen store.Extends id target := by
  induction h with
  | arrive => exact .refl
  | step _ hdecl hedge hraw _ _ ih => exact ih.head (.of_mem _ hdecl hedge hraw)

lemma length (h : store.PassedUp target id passed) :
    passed.length = (store.paramsOf target).length := by
  induction h with
  | arrive => simp
  | step _ _ _ _ _ _ ih => simpa using ih

/-- There is one choice of edges toward a target, and so one list of arguments. -/
lemma unique {passed' : List Ty} (h : store.PassedUp target id passed)
    (h' : store.PassedUp target id passed') : passed = passed' := by
  induction h generalizing passed' with
  | arrive =>
      cases h' with
      | arrive => rfl
      | step hne => exact absurd rfl hne
  | step hne _ _ hraw hnext _ ih =>
      cases h' with
      | arrive => exact absurd rfl hne
      | step _ _ _ hraw' hnext' hrest' =>
          rw [hnext] at hnext'
          obtain rfl := Option.some.inj (Except.ok.inj hnext')
          rw [hraw] at hraw'
          obtain rfl := Option.some.inj hraw'
          rw [ih hrest']

/-- What is passed up is written in terms of the parameters of the class. -/
lemma vars (hwalk : store.Walkable) (h : store.PassedUp target id passed) :
    ∀ v ∈ Ty.varsAll passed, v ∈ store.paramsOf id := by
  induction h with
  | arrive =>
      intro v hv
      obtain ⟨ty, hty, hv⟩ := Ty.mem_varsAll.mp hv
      obtain ⟨w, hw, rfl⟩ := List.mem_map.mp hty
      obtain rfl : v = w := by simpa [Ty.vars] using hv
      exact hw
  | @step id parent decl edge passed hne hdecl hedge hraw hnext hrest ih =>
      intro w hw
      have hfits := hwalk.fits hdecl hedge hraw
      rw [← Ty.substAll_eq_map] at hw
      obtain ⟨v, ty, hv, hw⟩ := Ty.mem_varsAll_substAll passed
        (fun v hv => exists_assigning hfits.2.2.2 (ih v hv)) hw
      rw [paramsOf_eq hdecl]
      exact hwalk.own_vars id decl hdecl edge hedge w
        (Ty.mem_varsAll.mpr ⟨ty, (mem_of_assigning hv).2, hw⟩)

/-- What the arguments of an edge make of what is passed up, with arguments put in, is what the
arguments put into the edge make of it. -/
lemma map_subst_edge (hwalk : store.Walkable) (h : store.PassedUp target id passed)
    {edgeArgs : List Ty} (hlength : edgeArgs.length = (store.paramsOf id).length)
    (σ : TypeVarId → Option Ty) :
    (passed.map (Ty.subst (store.assigning id edgeArgs))).map (Ty.subst σ) =
      passed.map (Ty.subst (store.assigning id (edgeArgs.map (Ty.subst σ)))) := by
  rw [List.map_map]
  refine List.map_congr_left fun ty hty => ?_
  refine (Ty.subst_subst _ _ ty).trans (Ty.subst_congr ty fun v hv => ?_)
  obtain ⟨arg, harg⟩ := exists_assigning hlength
    (h.vars hwalk v (Ty.mem_varsAll.mpr ⟨ty, hty, hv⟩))
  rw [Ty.andThen_of_eq_some harg, assigning_map, harg, Option.map_some]

/-- **A way up arrives at the target with what is passed up**, whatever it starts with. -/
theorem exists_ascent (hwalk : store.Walkable) (h : store.PassedUp target id passed)
    {args : List Ty} (hlength : args.length = (store.paramsOf id).length) :
    ∃ levels, store.Ascent target id args levels ∧
      (target, passed.map (Ty.subst (store.assigning id args))) ∈ levels := by
  induction h generalizing args with
  | arrive =>
      rw [map_subst_assigning_params (hwalk.params_nodup target) hlength]
      exact ⟨_, .arrive args, by simp⟩
  | @step id parent decl edge passed hne hdecl hedge hraw hnext hrest ih =>
      have hfits := hwalk.fits hdecl hedge hraw
      obtain ⟨levels, hascent, hmem⟩ :=
        @ih (edge.args.map (Ty.subst (store.assigning id args))) (by simpa using hfits.2.2.2)
      refine ⟨_, .step hne hnext hraw hascent, List.mem_cons_of_mem _ ?_⟩
      rwa [hrest.map_subst_edge hwalk hfits.2.2.2]

/-- What is passed up, with arguments put in, is seen from them. -/
theorem sees (hwalk : store.Walkable) (h : store.PassedUp target id passed) {args : List Ty}
    (hlength : args.length = (store.paramsOf id).length) :
    store.Sees id args target (passed.map (Ty.subst (store.assigning id args))) := by
  induction h generalizing args with
  | arrive =>
      rw [map_subst_assigning_params (hwalk.params_nodup target) hlength]
      exact .self
  | @step id parent decl edge passed hne hdecl hedge hraw hnext hrest ih =>
      have hfits := hwalk.fits hdecl hedge hraw
      rw [hrest.map_subst_edge hwalk hfits.2.2.2]
      exact (Sees.self.step hdecl hedge hraw).trans (ih (by simpa using hfits.2.2.2))

end PassedUp

end Store

end JavaGenerics
