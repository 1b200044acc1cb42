import JavaGenerics.Proofs.NextParent
import JavaGenerics.Subtyping

/-!
# Ascents

Seen from a class, a type higher up takes arguments that are found level by level: the arguments of
each declared supertype are written in terms of the parameters of the class below it, and these are
replaced, all at once, by the arguments that class is seen with.

* `Store.Ascent` — the levels on the way from an applied class to a target.
* `Walkable.exists_ascent` — in a walkable store every way leads on to the target, in at most as
  many levels as there are classes.
* `Store.bindLevels` — the bindings of all levels together, and `Ascent.get?_bindLevels_iff` —
  **what they bind is exactly what the levels say.**
-/

namespace JavaGenerics

open Relation

namespace Store

variable (store : Store)

/-- The parameters of a class, each standing for the argument at its place. -/
def assigning (id : ClassId) (args : List Ty) (v : TypeVarId) : Option Ty :=
  ((store.paramsOf id).zip args).lookup v

/-- The levels that are passed from a class with arguments to a target, each a class with the
arguments it is seen with.  The way ends at the target or, short of it, where no declared supertype
leads on. -/
inductive Ascent (target : ClassId) : ClassId → List Ty → List (ClassId × List Ty) → Prop
  | arrive (args : List Ty) : Ascent target target args [(target, args)]
  | stop {id : ClassId} {args : List Ty} (hne : id ≠ target)
      (hnext : store.nextToward id target = .ok none) : Ascent target id args [(id, args)]
  | step {id parent : ClassId} {args : List Ty} {edge : Ty} {levels : List (ClassId × List Ty)}
      (hne : id ≠ target) (hnext : store.nextToward id target = .ok (some edge))
      (hraw : edge.rawClass? = some parent)
      (hrest : Ascent target parent (edge.args.map (Ty.subst (store.assigning id args))) levels) :
      Ascent target id args ((id, args) :: levels)

variable {store}

/-- The levels on the way to a target are determined by where it starts. -/
theorem Ascent.unique {target id : ClassId} {args : List Ty}
    {levels levels' : List (ClassId × List Ty)}
    (h : store.Ascent target id args levels) (h' : store.Ascent target id args levels') :
    levels = levels' := by
  induction h generalizing levels' with
  | arrive args =>
      cases h' with
      | arrive => rfl
      | stop hne => exact absurd rfl hne
      | step hne => exact absurd rfl hne
  | stop hne hnext =>
      cases h' with
      | arrive => exact absurd rfl hne
      | stop => rfl
      | step _ hnext' =>
          rw [hnext] at hnext'
          exact absurd hnext' (by simp)
  | step hne hnext hraw hrest ih =>
      cases h' with
      | arrive => exact absurd rfl hne
      | stop _ hnext' =>
          rw [hnext] at hnext'
          exact absurd hnext' (by simp)
      | step _ hnext' hraw' hrest' =>
          rw [hnext] at hnext'
          simp only [Except.ok.injEq, Option.some.injEq] at hnext'
          subst hnext'
          rw [hraw, Option.some.injEq] at hraw'
          subst hraw'
          rw [ih hrest']

/-- **In a walkable store there is a way to everything above**, with no more levels than the class
has classes above it, itself included. -/
theorem Walkable.exists_ascent (hwalk : store.Walkable) {target : ClassId}
    (htarget : store.wellKnown.isPrimitive target = false) :
    ∀ (n : Nat) {id : ClassId} (args : List Ty), store.height id < n → store.Knows id →
      store.Below id target →
      ∃ levels, store.Ascent target id args levels ∧ levels.length ≤ store.height id + 1
  | 0, _, _, hn, _, _ => absurd hn (by simp)
  | n + 1, id, args, hn, hid, hbelow => by
    by_cases hne : id = target
    · subst hne
      exact ⟨_, .arrive args, by simp⟩
    rcases hwalk.nextToward_cases hid htarget hne hbelow with
      ⟨hnext, -⟩ | ⟨decl, edge, parent, hdecl, hedge, hfits, hparent, hnext⟩
    · exact ⟨_, .stop hne hnext, by simp⟩
    · have hlt := hwalk.height_lt (Extends.of_mem edge hdecl hedge hfits.1)
      obtain ⟨levels, hlevels, hlength⟩ := hwalk.exists_ascent htarget n
        (edge.args.map (Ty.subst (store.assigning id args))) (by omega) hfits.2.1.1 hparent
      exact ⟨_, .step hne hnext hfits.1 hlevels, by simp only [List.length_cons]; omega⟩

/-- The way ends at the target.  On the way to `Object` it may end sooner, where no superclass is
declared. -/
lemma Walkable.ascent_ends (hwalk : store.Walkable) {target id : ClassId} {args : List Ty}
    {levels : List (ClassId × List Ty)} (h : store.Ascent target id args levels)
    (htarget : store.wellKnown.isPrimitive target = false) (hid : store.Knows id)
    (hbelow : store.Below id target) :
    levels.getLast?.map Prod.fst = some target ∨ target = store.wellKnown.object := by
  induction h with
  | arrive args => exact Or.inl rfl
  | stop hne hnext =>
      rcases hwalk.nextToward_cases hid htarget hne hbelow with
        ⟨-, hobject⟩ | ⟨_, _, _, _, _, _, _, hsome⟩
      · exact Or.inr hobject
      · rw [hnext] at hsome
        exact absurd hsome (by simp)
  | step hne hnext hraw hrest ih =>
      obtain ⟨decl, hdecl, hedge, hfits, hparent⟩ :=
        hwalk.of_nextToward_raw hid htarget hne hbelow hnext hraw
      refine (ih hfits.2.1.1 hparent).imp_left fun hlast => ?_
      obtain ⟨level, hlevel, rfl⟩ := Option.map_eq_some_iff.mp hlast
      simp [List.getLast?_cons, hlevel]

/-- In a regular store there is a way to everything above. -/
theorem Regular.exists_ascent (hreg : store.Regular) {target : ClassId}
    (htarget : store.wellKnown.isPrimitive target = false) (n : Nat) {id : ClassId} (args : List Ty)
    (hn : store.height id < n) (hid : store.Knows id) (hbelow : store.Below id target) :
    ∃ levels, store.Ascent target id args levels ∧ levels.length ≤ store.height id + 1 :=
  hreg.toWalkable.exists_ascent htarget n args hn hid hbelow

lemma Regular.ascent_ends (hreg : store.Regular) {target id : ClassId} {args : List Ty}
    {levels : List (ClassId × List Ty)} (h : store.Ascent target id args levels)
    (htarget : store.wellKnown.isPrimitive target = false) (hid : store.Knows id)
    (hbelow : store.Below id target) :
    levels.getLast?.map Prod.fst = some target ∨ target = store.wellKnown.object :=
  hreg.toWalkable.ascent_ends h htarget hid hbelow

end Store

/-! ## Bindings of all levels -/

namespace Bindings

/-- Binds each variable to the type at its place. -/
def bindAll (map : Bindings) : List TypeVarId → List Ty → Bindings
  | v :: vars, ty :: types => (map.bind v ty).bindAll vars types
  | _, _ => map

@[simp]
lemma bindAll_nil (map : Bindings) (vars : List TypeVarId) : map.bindAll vars [] = map := by
  cases vars <;> rfl

lemma lookup_zip_eq_none {v : TypeVarId} : ∀ {vars : List TypeVarId} (types : List Ty), v ∉ vars →
    (vars.zip types).lookup v = none
  | [], _, _ => by simp
  | _ :: _, [], _ => by simp
  | w :: vars, ty :: types, h => by
    rw [List.mem_cons, not_or] at h
    simp [List.lookup_cons, beq_eq_false_iff_ne.mpr h.1, lookup_zip_eq_none types h.2]

/-- Distinct variables are bound to what stands at their places, and all others as before. -/
lemma get?_bindAll {v : TypeVarId} : ∀ {vars : List TypeVarId} (map : Bindings) (types : List Ty),
    vars.Nodup → (map.bindAll vars types).get? v = ((vars.zip types).lookup v).or (map.get? v)
  | [], _, _, _ => by simp [bindAll]
  | _ :: _, _, [], _ => by simp [bindAll]
  | w :: vars, map, ty :: types, h => by
    obtain ⟨hw, hvars⟩ := List.nodup_cons.mp h
    rw [bindAll, get?_bindAll (map.bind w ty) types hvars, get?_bind]
    by_cases hv : v = w
    · subst hv
      simp [lookup_zip_eq_none types hw]
    · simp [List.lookup_cons, beq_eq_false_iff_ne.mpr hv, hv]

end Bindings

namespace Store

variable (store : Store)

/-- Binds the parameters of every level to its arguments. -/
def bindLevels : Bindings → List (ClassId × List Ty) → Bindings
  | map, [] => map
  | map, (id, args) :: levels => bindLevels (map.bindAll (store.paramsOf id) args) levels

variable {store}

/-- A level of the way is where it starts, or above it. -/
lemma Ascent.path (hwalk : store.Walkable) {target id : ClassId} {args : List Ty}
    {levels : List (ClassId × List Ty)} (h : store.Ascent target id args levels)
    (htarget : store.wellKnown.isPrimitive target = false) (hid : store.Knows id)
    (hbelow : store.Below id target) :
    ∃ rest, levels = (id, args) :: rest ∧ (∀ level ∈ rest, TransGen store.Extends id level.1) ∧
      levels.Pairwise fun a b => TransGen store.Extends a.1 b.1 := by
  induction h with
  | arrive args => exact ⟨[], rfl, by simp, by simp⟩
  | stop => exact ⟨[], rfl, by simp, by simp⟩
  | @step id parent args edge levels hne hnext hraw hrest ih =>
      obtain ⟨decl, hdecl, hedge, hfits, hparent⟩ :=
        hwalk.of_nextToward_raw hid htarget hne hbelow hnext hraw
      have hstep := Extends.of_mem edge hdecl hedge hraw
      obtain ⟨rest, rfl, hpaths, hpairwise⟩ := ih hfits.2.1.1 hparent
      have habove : ∀ level ∈ (parent, edge.args.map (Ty.subst (store.assigning id args))) :: rest,
          TransGen store.Extends id level.1 := by
        intro level hlevel
        rcases List.mem_cons.mp hlevel with rfl | hlevel
        · exact .single hstep
        · exact (hpaths level hlevel).head hstep
      exact ⟨_, rfl, habove, List.pairwise_cons.mpr ⟨habove, hpairwise⟩⟩

/-- What is assigned to a variable is an argument, and the variable a parameter. -/
lemma mem_of_assigning {id : ClassId} {args : List Ty} {v : TypeVarId} {ty : Ty}
    (h : store.assigning id args v = some ty) : v ∈ store.paramsOf id ∧ ty ∈ args := by
  obtain ⟨before, after, hsplit, -⟩ := List.lookup_eq_some_iff.mp h
  have hmem : (v, ty) ∈ (store.paramsOf id).zip args := by
    rw [hsplit]
    simp
  exact List.of_mem_zip hmem

/-- A parameter is assigned an argument if there are as many arguments as parameters. -/
lemma exists_assigning {id : ClassId} {args : List Ty} {v : TypeVarId}
    (hlength : args.length = (store.paramsOf id).length) (hv : v ∈ store.paramsOf id) :
    ∃ ty, store.assigning id args v = some ty := by
  cases h : store.assigning id args v with
  | some ty => exact ⟨ty, rfl⟩
  | none =>
      exfalso
      rw [assigning, List.lookup_eq_none_iff] at h
      have hkeys : ((store.paramsOf id).zip args).map Prod.fst = store.paramsOf id :=
        List.map_fst_zip (by omega)
      rw [← hkeys, List.mem_map] at hv
      obtain ⟨entry, hentry, rfl⟩ := hv
      simpa using h entry hentry

/-- Assigning to changed arguments. -/
lemma assigning_map (id : ClassId) (args : List Ty) (f : Ty → Ty) (v : TypeVarId) :
    store.assigning id (args.map f) v = (store.assigning id args v).map f := by
  rw [assigning, assigning]
  generalize store.paramsOf id = params
  induction params generalizing args with
  | nil => simp
  | cons param params ih =>
      cases args with
      | nil => simp
      | cons arg args =>
          simp only [List.map_cons, List.zip_cons_cons, List.lookup_cons]
          cases v == param with
          | true => rfl
          | false => exact ih args

/-- Bindings of levels that belong to different classes: a variable is bound at the one level that
declares it, if any. -/
lemma Walkable.get?_bindLevels (hwalk : store.Walkable) (v : TypeVarId) (ty : Ty) :
    ∀ (levels : List (ClassId × List Ty)) (map : Bindings),
      levels.Pairwise (fun a b => TransGen store.Extends a.1 b.1) →
      ((store.bindLevels map levels).get? v = some ty ↔
        (∃ level ∈ levels, store.assigning level.1 level.2 v = some ty) ∨
        (∀ level ∈ levels, store.assigning level.1 level.2 v = none) ∧ map.get? v = some ty)
  | [], map, _ => by simp [bindLevels]
  | (id, args) :: levels, map, h => by
    obtain ⟨hpaths, hpairwise⟩ := List.pairwise_cons.mp h
    have hmap : (map.bindAll (store.paramsOf id) args).get? v =
        (store.assigning id args v).or (map.get? v) :=
      Bindings.get?_bindAll map args (hwalk.params_nodup id)
    rw [bindLevels, hwalk.get?_bindLevels v ty levels _ hpairwise, hmap]
    cases hown : store.assigning id args v with
    | none => simp [hown]
    | some own =>
        -- The variable belongs to this class, so no class further up declares it.
        have hforeign : ∀ level ∈ levels, store.assigning level.1 level.2 v = none := by
          intro level hlevel
          cases hlater : store.assigning level.1 level.2 v with
          | none => rfl
          | some later =>
              exfalso
              have hne : id ≠ level.1 := fun heq => hwalk.acyclic id (heq ▸ hpaths level hlevel)
              exact hwalk.params_disjoint id level.1 hne (mem_of_assigning hown).1
                (mem_of_assigning hlater).1
        have hnone : ¬ ∃ level ∈ levels, store.assigning level.1 level.2 v = some ty := by
          rintro ⟨level, hlevel, hsome⟩
          rw [hforeign level hlevel] at hsome
          exact absurd hsome (by simp)
        simp only [List.mem_cons, exists_eq_or_imp, forall_eq_or_imp, hown, hnone, or_false,
          false_or, Option.some_or, reduceCtorEq, false_and]
        exact ⟨fun h => h.2, fun h => ⟨hforeign, h⟩⟩

/-- **The bindings of all levels bind exactly what the levels say.** -/
theorem Ascent.get?_bindLevels_iff (hwalk : store.Walkable) {target id : ClassId} {args : List Ty}
    {levels : List (ClassId × List Ty)} (h : store.Ascent target id args levels)
    (htarget : store.wellKnown.isPrimitive target = false) (hid : store.Knows id)
    (hbelow : store.Below id target) (v : TypeVarId) (ty : Ty) :
    (store.bindLevels .empty levels).get? v = some ty ↔
      ∃ level ∈ levels, store.assigning level.1 level.2 v = some ty := by
  obtain ⟨-, -, -, hpairwise⟩ := h.path hwalk htarget hid hbelow
  simpa using hwalk.get?_bindLevels v ty levels .empty hpairwise

end Store

end JavaGenerics
