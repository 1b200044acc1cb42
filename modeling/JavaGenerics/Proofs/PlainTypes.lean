import JavaGenerics.Proofs.Ascent

/-!
# Plain types

Assignability has an answer that one can write down for types that stand on their own: no variables,
no owners, no raw use of a generic class, and wildcards with one bound at most.  The supertypes of a
class may in addition mention the parameters of the class, at places where a wildcard may be put in
for them.

* `Store.Plain` — the types, relative to the variables that may occur, and `Store.PlainArg` — what
  may stand as an argument, which a wildcard may and a plain type may.
* `Store.PlainEdges` — every declared supertype has plain arguments.
* `Ascent.plain` — **whatever a plain type is seen with, on the way up, is plain again.**
-/

namespace JavaGenerics

namespace Store

variable (store : Store)

mutual

/-- Types without raw or nested uses of classes, in which only the listed variables occur. -/
inductive Plain : List TypeVarId → Ty → Prop
  /-- A class without parameters.  `Object` counts as one, however it is declared. -/
  | cls {own : List TypeVarId} {id : ClassId} (hid : store.Reference id)
      (hparams : id = store.wellKnown.object ∨ store.paramsOf id = []) : Plain own (.cls id)
  | app {own : List TypeVarId} {raw : ClassId} {args : List Ty} (hraw : store.Reference raw)
      (hlength : args.length = (store.paramsOf raw).length)
      (hargs : ∀ arg ∈ args, PlainArg own arg) : Plain own (.app raw args)
  | var {own : List TypeVarId} {v : TypeVarId} (hv : v ∈ own) : Plain own (.var v)
  | array {own : List TypeVarId} {component : Ty} (h : Plain [] component) :
      Plain own (.array component)
  | primitives {own : List TypeVarId} {id : ClassId}
      (hid : store.wellKnown.isPrimitive id = true) : Plain own (.array (.cls id))

/-- Plain types and wildcards with one plain bound at most. -/
inductive PlainArg : List TypeVarId → Ty → Prop
  | type {own : List TypeVarId} {ty : Ty} (h : Plain own ty) : PlainArg own ty
  | unbounded {own : List TypeVarId} : PlainArg own .unbounded
  | extending {own : List TypeVarId} {bound : Ty} (h : Plain [] bound) :
      PlainArg own (.extending bound)
  | superOf {own : List TypeVarId} {bound : Ty} (h : Plain [] bound) :
      PlainArg own (.superOf bound)

end

/-- Every declared supertype has arguments that are plain over the parameters of the class. -/
def PlainEdges : Prop :=
  ∀ id decl, store.class? id = some decl → ∀ edge ∈ decl.edges.supertypes,
    ∀ arg ∈ edge.args, store.PlainArg decl.params arg

variable {store}

/-! ## Variables -/

mutual

theorem Plain.mem_own {own : List TypeVarId} {ty : Ty} :
    store.Plain own ty → ∀ v ∈ ty.vars, v ∈ own
  | .cls _ _ => by simp [Ty.vars]
  | .app _ _ hargs => by
    intro v hv
    simp only [Ty.app, Ty.vars, Ty.varsOwner, List.append_nil, Ty.mem_varsAll] at hv
    obtain ⟨arg, harg, hv⟩ := hv
    exact (hargs arg harg).mem_own v hv
  | .var hv => by simpa [Ty.vars] using hv
  | .array h => by
    intro v hv
    exact absurd (h.mem_own v hv) (by simp)
  | .primitives _ => by simp [Ty.vars]

theorem PlainArg.mem_own {own : List TypeVarId} {ty : Ty} :
    store.PlainArg own ty → ∀ v ∈ ty.vars, v ∈ own
  | .type h => h.mem_own
  | .unbounded => by simp [Ty.unbounded, Ty.vars, Ty.varsAll]
  | .extending h => by
    intro v hv
    simp only [Ty.extending, Ty.vars, Ty.varsAll, List.append_nil] at hv
    exact absurd (h.mem_own v hv) (by simp)
  | .superOf h => by
    intro v hv
    simp only [Ty.superOf, Ty.vars, Ty.varsAll, List.append_nil, List.nil_append] at hv
    exact absurd (h.mem_own v hv) (by simp)

end

lemma PlainArg.ground {ty : Ty} (h : store.PlainArg [] ty) : ty.Ground :=
  List.eq_nil_iff_forall_not_mem.mpr fun v hv => absurd (h.mem_own v hv) (by simp)

lemma Plain.ground {ty : Ty} (h : store.Plain [] ty) : ty.Ground :=
  (PlainArg.type h).ground

lemma Plain.args_plain {own : List TypeVarId} {ty : Ty} (h : store.Plain own ty) :
    ∀ arg ∈ ty.args, store.PlainArg own arg := by
  cases h with
  | app _ _ hargs => exact hargs
  | _ => simp [Ty.args]

lemma Plain.length_args {own : List TypeVarId} {raw : ClassId} {args : List Ty}
    (h : store.Plain own (.app raw args)) : args.length = (store.paramsOf raw).length := by
  cases h with
  | app _ hlength => exact hlength

/-- A plain class has the arguments it should have, unless it is `Object`. -/
lemma Plain.cases_class {ty : Ty} {id : ClassId} (h : store.Plain [] ty)
    (hraw : ty.rawClass? = some id) :
    store.FitsClass ty id ∧ Ty.varsAll ty.args = [] ∨
      ty = .cls store.wellKnown.object ∧ id = store.wellKnown.object := by
  have hground := h.ground
  cases h with
  | cls hid hparams =>
      rw [Ty.rawClass?, Option.some.injEq] at hraw
      subst hraw
      rcases hparams with rfl | hnone
      · exact Or.inr ⟨rfl, rfl⟩
      · exact Or.inl ⟨⟨rfl, hid, rfl, by simp [Ty.args, hnone]⟩, rfl⟩
  | app hid hlength =>
      rw [Ty.app, Ty.rawClass?, Option.some.injEq] at hraw
      subst hraw
      refine Or.inl ⟨⟨rfl, hid, rfl, hlength⟩, ?_⟩
      simpa [Ty.Ground, Ty.app, Ty.vars, Ty.varsOwner, Ty.args] using hground
  | var => simp [Ty.rawClass?] at hraw
  | array => simp [Ty.rawClass?] at hraw
  | primitives => simp [Ty.rawClass?] at hraw

/-- The class of a plain type is one of the store, and no primitive. -/
lemma Plain.reference {ty : Ty} {id : ClassId} (h : store.Plain [] ty)
    (hraw : ty.rawClass? = some id) : store.Reference id := by
  cases h <;> simp_all [Ty.rawClass?, Ty.app]

/-- A plain type without variables is a class or an array. -/
lemma Plain.class_or_array {ty : Ty} (h : store.Plain [] ty) :
    (∃ id, ty.rawClass? = some id) ∨ ty.isArray = true := by
  cases h with
  | var hv => exact absurd hv (by simp)
  | cls => exact Or.inl ⟨_, rfl⟩
  | app => exact Or.inl ⟨_, rfl⟩
  | array => exact Or.inr rfl
  | primitives => exact Or.inr rfl

lemma Plain.isWildcard {own : List TypeVarId} {ty : Ty} (h : store.Plain own ty) :
    ty.isWildcard = false := by
  cases h <;> rfl

lemma PlainArg.bound_of_extending {own : List TypeVarId} {bound : Ty}
    (h : store.PlainArg own (.extending bound)) : store.Plain [] bound := by
  cases h with
  | type h => exact absurd h.isWildcard (by simp [Ty.isWildcard, Ty.extending])
  | extending h => exact h

lemma PlainArg.bound_of_superOf {own : List TypeVarId} {bound : Ty}
    (h : store.PlainArg own (.superOf bound)) : store.Plain [] bound := by
  cases h with
  | type h => exact absurd h.isWildcard (by simp [Ty.isWildcard, Ty.superOf])
  | superOf h => exact h

/-! ## Substitution -/

mutual

theorem Plain.subst {own : List TypeVarId} {σ : TypeVarId → Option Ty} {ty : Ty}
    (hσ : ∀ v ∈ own, ∃ arg, σ v = some arg ∧ store.PlainArg [] arg) :
    store.Plain own ty → store.PlainArg [] (ty.subst σ)
  | .cls hid hparams => .type (.cls hid hparams)
  | .app hraw hlength hargs => by
    refine .type (.app hraw ?_ fun arg harg => ?_)
    · rw [Ty.substAll_eq_map, List.length_map, hlength]
    · rw [Ty.substAll_eq_map, List.mem_map] at harg
      obtain ⟨written, hwritten, rfl⟩ := harg
      exact (hargs written hwritten).subst hσ
  | .var hv => by
    obtain ⟨arg, harg, hplain⟩ := hσ _ hv
    rw [Ty.subst, harg]
    exact hplain
  | .array h => by
    rw [Ty.subst, h.ground.subst_eq]
    exact .type (.array h)
  | .primitives hid => .type (.primitives hid)

/-- Plain arguments may be put in for all variables of plain arguments. -/
theorem PlainArg.subst {own : List TypeVarId} {σ : TypeVarId → Option Ty} {ty : Ty}
    (hσ : ∀ v ∈ own, ∃ arg, σ v = some arg ∧ store.PlainArg [] arg) :
    store.PlainArg own ty → store.PlainArg [] (ty.subst σ)
  | .type h => h.subst hσ
  | .unbounded => .unbounded
  | .extending h => by
    rw [Ty.extending, Ty.subst, Ty.substAll, Ty.substAll, Ty.substAll, h.ground.subst_eq]
    exact .extending h
  | .superOf h => by
    rw [Ty.superOf, Ty.subst, Ty.substAll, Ty.substAll, Ty.substAll, h.ground.subst_eq]
    exact .superOf h

end

/-- **Whatever a class with plain arguments is seen with, on the way up, is plain again.** -/
theorem Ascent.plain (hreg : store.Regular) (hedges : store.PlainEdges) {target id : ClassId}
    {args : List Ty} {levels : List (ClassId × List Ty)}
    (h : store.Ascent target id args levels)
    (htarget : store.wellKnown.isPrimitive target = false) (hid : store.Knows id)
    (hbelow : store.Below id target) (hlength : args.length = (store.paramsOf id).length)
    (hargs : ∀ arg ∈ args, store.PlainArg [] arg) :
    ∀ level ∈ levels, level.2.length = (store.paramsOf level.1).length ∧
      ∀ arg ∈ level.2, store.PlainArg [] arg := by
  induction h with
  | arrive args => simpa using ⟨hlength, hargs⟩
  | stop => simpa using ⟨hlength, hargs⟩
  | step hne hnext hraw hrest ih =>
      obtain ⟨decl, hdecl, hedge, hfits, hparent⟩ :=
        hreg.toWalkable.of_nextToward_raw hid htarget hne hbelow hnext hraw
      intro level hlevel
      rcases List.mem_cons.mp hlevel with rfl | hlevel
      · exact ⟨hlength, hargs⟩
      refine ih hfits.2.1.1 hparent (by rw [List.length_map, hfits.2.2.2]) (fun arg harg => ?_)
        level hlevel
      obtain ⟨written, hwritten, rfl⟩ := List.mem_map.mp harg
      refine (hedges _ decl hdecl _ hedge written hwritten).subst fun v hv => ?_
      obtain ⟨ty, hty⟩ := exists_assigning hlength (paramsOf_eq hdecl ▸ hv)
      exact ⟨ty, hty, hargs ty (mem_of_assigning hty).2⟩

end Store

end JavaGenerics
