import JavaGenerics.Proofs.Ascent
import JavaGenerics.Proofs.RegularCheck

/-!
# A walk is an ascent

`Checker.walkWithin` threads one growing record of bindings through a recursion that also searches
the hierarchy, replaces variables by the ends of their chains and counts its own depth.  In a
walkable store, for a subject without variables, all of this comes to the levels of `Store.Ascent`.

* `Store.Applies` — the invariant: seen through the bindings made so far, the type a walk has come
  to is a class applied to ground arguments.
* `Checker.answer_walkWithin` — **a walk makes exactly the bindings of the levels**, unless it is
  stopped by the limit; and the limit stops it only where it is smaller than the number of levels
  and the nesting of the arguments together.
* `Checker.answer_viewAs_of_regular` — what this says of `Checker.viewAs`, unrelated classes
  included.
-/

namespace JavaGenerics

open Relation

namespace Store

/-- Seen through bindings, a type is the class `id` applied to `args`: every variable it mentions is
bound to a ground type, and none of them is a parameter of the class itself. -/
structure Applies (store : Store) (map : Bindings) (subject : Ty) (id : ClassId)
    (args : List Ty) : Prop where
  fits : store.FitsClass subject id
  bound : ∀ v ∈ Ty.varsAll subject.args, ∃ ty, map.get? v = some ty ∧ ty.Ground
  foreign : ∀ v ∈ Ty.varsAll subject.args, v ∉ store.paramsOf id
  args_eq : Ty.substAll map.get? subject.args = args

namespace Applies

variable {store : Store} {map : Bindings} {subject : Ty} {id : ClassId} {args : List Ty}

lemma resolves (h : store.Applies map subject id args) :
    Checker.Resolves map (Ty.varsAll subject.args) := by
  intro v hv
  obtain ⟨ty, hget, hground⟩ := h.bound v hv
  exact ⟨ty, hget, hground.var?_eq_none⟩

lemma ground (h : store.Applies map subject id args) : Ty.varsAll args = [] :=
  h.args_eq ▸ Ty.varsAll_substAll _ h.bound

lemma length (h : store.Applies map subject id args) :
    args.length = (store.paramsOf id).length := by
  rw [← h.args_eq, Ty.substAll_eq_map, List.length_map, h.fits.2.2.2]

/-- A ground type applies its class to its own arguments. -/
lemma of_ground (hfits : store.FitsClass subject id) (hground : Ty.varsAll subject.args = [])
    (map : Bindings) : store.Applies map subject id subject.args where
  fits := hfits
  bound := by simp [hground]
  foreign := by simp [hground]
  args_eq := Ty.substAll_eq_self _ (by simp [hground])

/-- Binding the arguments of a class makes each of its supertypes an application to ground types. -/
lemma of_edge (hwalk : store.Walkable) (hlength : args.length = (store.paramsOf id).length)
    (hground : Ty.varsAll args = []) (map : Bindings) {decl : ClassDecl}
    (hdecl : store.class? id = some decl) {edge : Ty} {parent : ClassId}
    (hedge : edge ∈ decl.edges.supertypes) (hfits : store.FitsClass edge parent) :
    store.Applies (map.bindAll (store.paramsOf id) args) edge parent
      (edge.args.map (Ty.subst (store.assigning id args))) := by
  have hown : ∀ v ∈ Ty.varsAll edge.args, v ∈ store.paramsOf id := by
    rw [paramsOf_eq hdecl]
    exact hwalk.own_vars id decl hdecl edge hedge
  have hget : ∀ v ∈ Ty.varsAll edge.args,
      (map.bindAll (store.paramsOf id) args).get? v = store.assigning id args v := by
    intro v hv
    obtain ⟨ty, hty⟩ := exists_assigning hlength (hown v hv)
    rw [Bindings.get?_bindAll map args (hwalk.params_nodup id)]
    have hlookup : ((store.paramsOf id).zip args).lookup v = some ty := hty
    rw [hty, hlookup, Option.some_or]
  refine ⟨hfits, fun v hv => ?_, fun v hv hparent => ?_, ?_⟩
  · obtain ⟨ty, hty⟩ := exists_assigning hlength (hown v hv)
    refine ⟨ty, (hget v hv).trans hty, ?_⟩
    exact Ty.varsAll_eq_nil.mp hground ty (mem_of_assigning hty).2
  · have hne : id ≠ parent := by
      rintro rfl
      exact hwalk.acyclic id (.single (Extends.of_mem edge hdecl hedge hfits.1))
    exact hwalk.params_disjoint id parent hne (hown v hv) hparent
  · rw [Ty.substAll_congr edge.args hget, Ty.substAll_eq_map]

end Applies

end Store

namespace Checker

variable {checker : Checker}

/-! ## One step -/

/-- Binding arguments binds all of them simultaneously, or reports the limit. -/
lemma bindArguments_eq (checker : Checker) (fuel : Nat) (before : Bindings) :
    ∀ (params : List TypeVarId) (args : List Ty) (map : Bindings), params.length = args.length →
      Resolves before (Ty.varsAll args) → (∀ v ∈ Ty.varsAll args, v ∉ params) →
      checker.bindArguments fuel before params args map =
        if Ty.nestingAll args ≤ fuel then .ok (map.bindAll params (Ty.substAll before.get? args))
        else .error checker.tooDeep
  | [], [], map, _, _, _ => by
    simp [bindArguments, Bindings.bindAll, Ty.nestingAll]
  | param :: params, arg :: args, map, hlength, hresolves, hforeign => by
    simp only [Ty.varsAll, Resolves, List.mem_append] at hresolves hforeign
    have hown : arg.var? ≠ some param := by
      intro hvar
      cases arg with
      | var v =>
          rw [Ty.var?, Option.some.injEq] at hvar
          exact hforeign v (Or.inl (by simp [Ty.vars])) (by simp [hvar])
      | _ => simp [Ty.var?] at hvar
    have hrest := bindArguments_eq checker fuel before params args
      (map.bind param (arg.subst before.get?)) (by simpa using hlength)
      (fun v hv => hresolves v (Or.inr hv))
      (fun v hv hmem => hforeign v (Or.inr hv) (List.mem_cons_of_mem _ hmem))
    rw [bindArguments, if_neg hown,
      checker.substWithin_eq before fuel arg fun v hv => hresolves v (Or.inl hv)]
    simp only [Ty.nestingAll, Ty.substAll, Bindings.bindAll, Nat.max_le, Nat.succ_le_iff]
    by_cases harg : arg.nesting < fuel
    · simp [harg, hrest]
    · simp [harg]

/-- Arguments without variables are bound as they are. -/
lemma bindArguments_ground (checker : Checker) {fuel : Nat} {params : List TypeVarId}
    {args : List Ty} (hlength : params.length = args.length) (hargs : Ty.varsAll args = [])
    (hfuel : Ty.nestingAll args ≤ fuel) (before map : Bindings) :
    checker.bindArguments fuel before params args map = .ok (map.bindAll params args) := by
  rw [bindArguments_eq checker fuel before params args map hlength (by simp [Resolves, hargs])
    (by simp [hargs]), if_pos hfuel, Ty.substAll_eq_self args (by simp [hargs])]

/-- A walk from an applied class to this class itself binds its arguments and has arrived, if its
owner brings no bindings along. -/
lemma answer_walkWithin_own (checker : Checker) {id : ClassId} {decl : ClassDecl}
    (hdecl : checker.store.class? id = some decl) {args : List Ty}
    (hlength : args.length = decl.params.length) {owner : Option Ty}
    (howner : ∀ ty, owner = some ty → ty.isApplied = false) (fuel : Nat) (map : Bindings) :
    checker.answer (checker.walkWithin (fuel + 1) (.applied id args owner) id map) =
      (checker.bindArguments fuel map decl.params args map).map some := by
  have hconverts : checker.answer (checker.classConverts id id) = .ok true := by
    simp [classConverts]
  have hinherited : walkOwner (checker.walkWithin fuel) owner map = pure map := by
    unfold walkOwner
    split
    · exact absurd (howner _ rfl) (by simp [Ty.isApplied])
    · rfl
  have hlength' : ¬ decl.edges.params.length ≠ args.length := not_not_intro hlength.symm
  simp only [walkWithin, walkStep, walkApplied, answer_bind, hconverts, ok_bind, if_true,
    hinherited, answer_pure, answer_edgesOf, checker.edgesFromStore_of_class hdecl,
    if_neg hlength', answer_lift]
  rw [show decl.edges.params = decl.params from rfl]
  cases checker.bindArguments fuel map decl.params args map <;> rfl

/-- A walk from an applied class with an owner is one without, with what the owner brings along. -/
lemma answer_walkWithin_owned (checker : Checker) {raw target : ClassId}
    (hconverts : checker.answer (checker.classConverts raw target) = .ok true) (args : List Ty)
    (owner : Option Ty) (fuel : Nat) (map : Bindings) :
    checker.answer (checker.walkWithin (fuel + 1) (.applied raw args owner) target map) =
      checker.answer (walkOwner (checker.walkWithin fuel) owner map) >>= fun before =>
        checker.answer (checker.walkWithin (fuel + 1) (.app raw args) target before) := by
  have hnone (before : Bindings) :
      walkOwner (checker.walkWithin fuel) none before = pure before := rfl
  simp only [Ty.app, walkWithin, walkStep, walkApplied, hnone, answer_bind, hconverts, ok_bind,
    if_true, answer_pure]

/-- A walk goes on with the supertype that is next, and ends where there is none. -/
lemma answer_walkParent (checker : Checker) (fuel : Nat) (id target : ClassId) (bound : Bindings) :
    checker.answer (checker.walkParent (checker.walkWithin fuel) id target bound) =
      checker.store.nextToward id target >>= fun next =>
        match next with
        | some parent => checker.answer (checker.walkWithin fuel parent target bound)
        | none => .ok (some bound) := by
  rw [walkParent, answer_bind, answer_parentToward]
  congr 1
  funext next
  cases next <;> rfl

/-- **One step of a walk** toward a class that is above binds the arguments and goes on with the
next supertype, if there is one. -/
lemma answer_walkWithin_succ (hwalk : checker.store.Walkable) (fuel : Nat) {map : Bindings}
    {subject : Ty} {id target : ClassId} {args : List Ty}
    (h : checker.store.Applies map subject id args) (htarget : checker.isPrimitive target = false)
    (hbelow : checker.store.Below id target) :
    checker.answer (checker.walkWithin (fuel + 1) subject target map) =
      if Ty.nestingAll subject.args ≤ fuel then
        let bound := map.bindAll (checker.store.paramsOf id) args
        if id = target then .ok (some bound)
        else checker.store.nextToward id target >>= fun next =>
          match next with
          | some parent => checker.answer (checker.walkWithin fuel parent target bound)
          | none => .ok (some bound)
      else .error checker.tooDeep := by
  obtain ⟨⟨decl, hdecl⟩, hprim⟩ := h.fits.2.1
  obtain ⟨leads, hleads, hiff⟩ := answer_classConverts hwalk.nominal h.fits.2.1.1 hprim htarget
  rw [hiff.mpr hbelow] at hleads
  cases subject with
  | cls raw =>
      obtain ⟨hraw, -, -, hlength⟩ := h.fits
      rw [Ty.rawClass?, Option.some.injEq] at hraw
      subst hraw
      have hargs : args = [] := by simpa [Ty.args, Ty.substAll] using h.args_eq.symm
      have hprim' : checker.store.wellKnown.primitive? raw = none := by
        simpa [WellKnown.isPrimitive] using hprim
      subst hargs
      simp only [walkWithin, walkStep, walkClass, answer_bind, hleads, ok_bind, if_true, hprim',
        answer_ite, answer_pure, answer_walkParent, Bindings.bindAll_nil, Ty.args, Ty.nestingAll,
        Nat.zero_le]
  | applied raw rawArgs owner =>
      obtain ⟨hraw, -, howner, hlength⟩ := h.fits
      rw [Ty.rawClass?, Option.some.injEq] at hraw
      subst hraw
      rw [Ty.owner?] at howner
      subst howner
      have hedges := checker.edgesFromStore_of_class hdecl
      have hparams : decl.edges.params = checker.store.paramsOf raw :=
        (Store.paramsOf_eq hdecl).symm
      have hlength' : (checker.store.paramsOf raw).length = rawArgs.length := hlength.symm
      have hbind := bindArguments_eq checker fuel map (checker.store.paramsOf raw) rawArgs
        map hlength' h.resolves h.foreign
      have hargs : Ty.substAll map.get? rawArgs = args := h.args_eq
      simp only [walkWithin, walkStep, walkApplied, answer_bind, hleads, ok_bind, if_true,
        walkOwner, answer_pure, answer_edgesOf, hedges, hparams, hlength', ne_eq, not_true,
        if_false, answer_lift, hbind, hargs, Ty.args]
      by_cases hfuel : Ty.nestingAll rawArgs ≤ fuel
      · simp [hfuel, answer_walkParent]
      · simp [hfuel]
  | var v => exact absurd h.fits.1 (by simp [Ty.rawClass?])
  | wildcard upper lower => exact absurd h.fits.1 (by simp [Ty.rawClass?])
  | array component => exact absurd h.fits.1 (by simp [Ty.rawClass?])

/-! ## The whole walk -/

/-- **A walk makes the bindings of the levels on its way**, or is stopped by the limit.  `n` bounds
the nesting of all arguments that are written on the way. -/
theorem answer_walkWithin (hwalk : checker.store.Walkable) {target : ClassId}
    (htarget : checker.isPrimitive target = false) {n : Nat}
    (hn : ∀ id decl, checker.store.class? id = some decl → ∀ edge ∈ decl.edges.supertypes,
      Ty.nestingAll edge.args ≤ n) {id : ClassId} {args : List Ty}
    {levels : List (ClassId × List Ty)} (hascent : checker.store.Ascent target id args levels)
    (hbelow : checker.store.Below id target) :
    ∀ (fuel : Nat) (map : Bindings) (subject : Ty), checker.store.Applies map subject id args →
      Ty.nestingAll subject.args ≤ n →
      checker.answer (checker.walkWithin fuel subject target map) =
          .ok (some (checker.store.bindLevels map levels)) ∨
        checker.answer (checker.walkWithin fuel subject target map) = .error checker.tooDeep ∧
          fuel < levels.length + n := by
  induction hascent with
  | arrive args =>
      rintro (_ | fuel) map subject happlies hnesting
      · exact Or.inr ⟨rfl, by simp only [List.length_singleton]; omega⟩
      rw [answer_walkWithin_succ hwalk fuel happlies htarget hbelow]
      by_cases hfuel : Ty.nestingAll subject.args ≤ fuel
      · exact Or.inl (by simp [hfuel, Store.bindLevels])
      · exact Or.inr ⟨by simp [hfuel], by simp only [List.length_singleton]; omega⟩
  | stop hne hnext =>
      rintro (_ | fuel) map subject happlies hnesting
      · exact Or.inr ⟨rfl, by simp only [List.length_singleton]; omega⟩
      rw [answer_walkWithin_succ hwalk fuel happlies htarget hbelow]
      by_cases hfuel : Ty.nestingAll subject.args ≤ fuel
      · exact Or.inl (by simp [hfuel, hne, hnext, Store.bindLevels])
      · exact Or.inr ⟨by simp [hfuel], by simp only [List.length_singleton]; omega⟩
  | @step id parent args edge levels hne hnext hraw hrest ih =>
      rintro (_ | fuel) map subject happlies hnesting
      · exact Or.inr ⟨rfl, by simp only [List.length_cons]; omega⟩
      rw [answer_walkWithin_succ hwalk fuel happlies htarget hbelow]
      by_cases hfuel : Ty.nestingAll subject.args ≤ fuel
      · obtain ⟨decl, hdecl, hedge, hfits, hparent⟩ :=
          hwalk.of_nextToward_raw happlies.fits.2.1.1 htarget hne hbelow hnext hraw
        have happlies' := Store.Applies.of_edge hwalk happlies.length happlies.ground map hdecl
          hedge hfits
        simp only [hfuel, if_true, hne, if_false, hnext, ok_bind, Store.bindLevels]
        rcases ih hparent fuel _ edge happlies' (hn id decl hdecl edge hedge) with
          hok | ⟨herror, hlt⟩
        · exact Or.inl hok
        · exact Or.inr ⟨herror, by simp only [List.length_cons]; omega⟩
      · exact Or.inr ⟨by simp [hfuel], by simp only [List.length_cons]; omega⟩

/-- Nothing is seen as an instance of what it is not below. -/
lemma answer_walkWithin_of_not_below (hnom : checker.store.Nominal) (fuel : Nat) {map : Bindings}
    {subject : Ty} {id target : ClassId} (hraw : subject.rawClass? = some id)
    (hid : checker.store.Reference id) (htarget : checker.isPrimitive target = false)
    (hbelow : ¬ checker.store.Below id target) :
    checker.answer (checker.walkWithin (fuel + 1) subject target map) = .ok none := by
  obtain ⟨leads, hleads, hiff⟩ := answer_classConverts hnom hid.1 hid.2 htarget
  have hfalse : leads = false := by simpa using mt hiff.mp hbelow
  rw [hfalse] at hleads
  cases subject with
  | cls raw =>
      rw [Ty.rawClass?, Option.some.injEq] at hraw
      subst hraw
      simp [walkWithin, walkStep, walkClass, hleads]
  | applied raw args owner =>
      rw [Ty.rawClass?, Option.some.injEq] at hraw
      subst hraw
      simp [walkWithin, walkStep, walkApplied, hleads]
  | var v => exact absurd hraw (by simp [Ty.rawClass?])
  | wildcard upper lower => exact absurd hraw (by simp [Ty.rawClass?])
  | array component => exact absurd hraw (by simp [Ty.rawClass?])

end Checker

/-! ## Limits that are never met -/

/-- How deeply the most deeply nested of some types is nested. -/
def Ty.deepest : List Ty → Nat
  | [] => 0
  | ty :: rest => max ty.nesting (deepest rest)

lemma Ty.nestingAll_le_deepest (types : List Ty) : nestingAll types ≤ deepest types + 1 := by
  induction types with
  | nil => simp [nestingAll]
  | cons ty rest ih =>
      simp only [nestingAll, deepest]
      omega

lemma Ty.nesting_le_deepest {ty : Ty} : ∀ {types : List Ty}, ty ∈ types → ty.nesting ≤ deepest types
  | [], h => absurd h (by simp)
  | first :: rest, h => by
    rcases List.mem_cons.mp h with rfl | h
    · exact Nat.le_max_left _ _
    · exact (nesting_le_deepest h).trans (Nat.le_max_right _ _)

lemma Ty.nesting_lt_nestingAll {ty : Ty} : ∀ {types : List Ty}, ty ∈ types →
    ty.nesting < nestingAll types
  | [], h => absurd h (by simp)
  | first :: rest, h => by
    rw [nestingAll]
    rcases List.mem_cons.mp h with rfl | h
    · omega
    · have := nesting_lt_nestingAll h
      omega

lemma Ty.deepest_le {n : Nat} : ∀ {types : List Ty}, (∀ ty ∈ types, ty.nesting ≤ n) →
    deepest types ≤ n
  | [], _ => Nat.zero_le n
  | _ :: _, h => Nat.max_le.mpr ⟨h _ (by simp), deepest_le fun _ hty => h _ (by simp [hty])⟩

/-- All arguments of all declared supertypes. -/
def Store.edgeArgs (store : Store) : List Ty :=
  store.classes.toList.flatMap fun decl => decl.edges.supertypes.flatMap Ty.args

lemma Store.nestingAll_edge_le {store : Store} {id : ClassId} {decl : ClassDecl}
    (hdecl : store.class? id = some decl) {edge : Ty} (hedge : edge ∈ decl.edges.supertypes) :
    Ty.nestingAll edge.args ≤ Ty.deepest store.edgeArgs + 1 := by
  refine (Ty.nestingAll_le_deepest _).trans (Nat.succ_le_succ (Ty.deepest_le fun ty hty => ?_))
  have hmem : decl ∈ store.classes.toList := Array.mem_toList_iff.mpr (Array.mem_of_getElem? hdecl)
  exact Ty.nesting_le_deepest
    (List.mem_flatMap.mpr ⟨decl, hmem, List.mem_flatMap.mpr ⟨edge, hedge, hty⟩⟩)

namespace Checker

variable {checker : Checker}

/-- **In a regular store, an applied class is seen as an instance of exactly what it is below**, and
what is found are the arguments of the levels on the way: the parameters of each class that is
passed, and no other variables, each with the argument it has there.  A limit of as many levels as
there are classes, and as are nested in any argument, is never met. -/
theorem answer_viewAs_of_regular (checker : Checker) (hreg : checker.store.Regular)
    {id target : ClassId} {args : List Ty} (hid : checker.store.Reference id)
    (hlength : args.length = (checker.store.paramsOf id).length)
    (hground : ∀ arg ∈ args, arg.Ground) (htarget : checker.isPrimitive target = false)
    (hdepth : checker.store.size + max (Ty.deepest args) (Ty.deepest checker.store.edgeArgs) ≤
      checker.limits.maxDepth) :
    (checker.answer (checker.viewAs (.app id args) target .empty) = .ok none ↔
      ¬ checker.store.Below id target) ∧
    (checker.store.Below id target → ∃ levels map,
      checker.answer (checker.viewAs (.app id args) target .empty) = .ok (some map) ∧
      checker.store.Ascent target id args levels ∧
      (levels.getLast?.map Prod.fst = some target ∨ target = checker.store.wellKnown.object) ∧
      ∀ v ty, map.get? v = some ty ↔
        ∃ level ∈ levels, checker.store.assigning level.1 level.2 v = some ty) := by
  by_cases hbelow : checker.store.Below id target
  · obtain ⟨levels, hascent, hlevels⟩ :=
      hreg.exists_ascent htarget _ args (Nat.lt_succ_self _) hid.1 hbelow
    have hheight := hreg.height_lt_size hid.1
    have hends := hreg.ascent_ends hascent htarget hid.1 hbelow
    have hfits : checker.store.FitsClass (.app id args) id := ⟨rfl, hid, rfl, hlength⟩
    have happlies : checker.store.Applies .empty (.app id args) id args :=
      .of_ground hfits (Ty.varsAll_eq_nil.mpr hground) _
    have hanswer : checker.answer (checker.viewAs (.app id args) target .empty) =
        .ok (some (checker.store.bindLevels .empty levels)) := by
      rcases answer_walkWithin hreg htarget
        (n := max (Ty.deepest args) (Ty.deepest checker.store.edgeArgs) + 1)
        (fun _ _ hdecl _ hedge => (Store.nestingAll_edge_le hdecl hedge).trans (by omega))
        hascent hbelow checker.fuel .empty (.app id args) happlies
        ((Ty.nestingAll_le_deepest args).trans (by omega)) with hok | ⟨-, hlt⟩
      · exact hok
      · rw [fuel] at hlt
        omega
    refine ⟨by simp [hanswer, hbelow], fun _ => ⟨levels, _, hanswer, hascent, hends, ?_⟩⟩
    exact hascent.get?_bindLevels_iff hreg htarget hid.1 hbelow
  · have hanswer : checker.answer (checker.viewAs (.app id args) target .empty) = .ok none :=
      answer_walkWithin_of_not_below hreg.nominal _ rfl hid htarget hbelow
    exact ⟨by simp [hanswer, hbelow], fun h => absurd h hbelow⟩

/-- An `ArrayList<String>` is seen as a `Collection` on a way that ends there. -/
theorem answer_viewAs_arrayList :
    let checker : Checker := { store := .collections }
    ∃ levels map,
      checker.answer (checker.viewAs (.app ⟨29⟩ [.cls ⟨5⟩]) ⟨24⟩ .empty) = .ok (some map) ∧
      checker.store.Ascent ⟨24⟩ ⟨29⟩ [.cls ⟨5⟩] levels ∧
      (levels.getLast?.map Prod.fst = some ⟨24⟩ ∨
        (⟨24⟩ : ClassId) = checker.store.wellKnown.object) ∧
      ∀ v ty, map.get? v = some ty ↔
        ∃ level ∈ levels, checker.store.assigning level.1 level.2 v = some ty := by
  intro checker
  refine (answer_viewAs_of_regular checker Store.collections_regular
    ⟨⟨_, rfl⟩, by decide⟩ rfl ?_ (by decide) (by decide)).2 Store.collections_arrayList_below
  intro arg harg
  rw [List.mem_singleton] at harg
  subst harg
  rfl

end Checker

end JavaGenerics
