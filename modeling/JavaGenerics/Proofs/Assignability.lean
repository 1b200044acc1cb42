import JavaGenerics.Proofs.Containment
import JavaGenerics.Proofs.EdgePaths
import JavaGenerics.Proofs.PlainCheck

/-!
# Assignability decides subtyping

The rules of `Store.Sub` and the program `Checker.assignable` are put side by side.

* `Ascent.get?_bindLevels_param`, `Owned.get?_bindLevels_param` — what a walk binds the parameters
  of its target to: the arguments found there, whatever the owners on the way bind.
* `Checker.decides_assignWithin_app`, `Checker.decides_assignWithin_array` — one level of the
  program applies one rule.
* `Checker.decides_assignWithin` — **what the program answers is right**, by induction on the fuel.
  Owners do not matter: it answers for the types without them.
* `Sub.bounded`, `Sub.answer_assignable` — **what the rules derive is found**, with any limit that
  is large enough, by induction on the derivation, with one lemma for each rule.
* `assignable_iff_sub` — the two together, for types that have no owners.

Nothing is found to be *no* subtype without a limit that is large enough, and there need not be one:
a class may implement an interface of which it is contained in an argument, below a lower bound, and
then the search for a derivation does not end.
-/

namespace JavaGenerics

open Relation

lemma Ty.beq_cls_iff {ty : Ty} {id : ClassId} : (ty == .cls id) = true ↔ ty = .cls id := by
  have hsame : (ty == .cls id) = same ty (.cls id) := rfl
  rw [hsame]
  cases ty <;> simp [same]

lemma Ty.cls_beq_iff {ty : Ty} {id : ClassId} : (Ty.cls id == ty) = true ↔ ty = .cls id := by
  have hsame : (Ty.cls id == ty) = same (.cls id) ty := rfl
  rw [hsame]
  cases ty with
  | cls other =>
      simp only [same, beq_iff_eq, cls.injEq]
      exact eq_comm
  | _ => simp [same]

namespace Store

variable {store : Store}

/-! ## Arguments found by a walk -/

/-- The level of a class on a way is the one at which it is looked up. -/
lemma lookup_eq_some_of_mem {target : ClassId} {args : List Ty}
    (hacyclic : ∀ id, ¬ TransGen store.Extends id id) :
    ∀ {levels : List (ClassId × List Ty)},
      levels.Pairwise (fun a b => TransGen store.Extends a.1 b.1) → (target, args) ∈ levels →
      levels.lookup target = some args
  | [], _, hmem => absurd hmem (by simp)
  | level :: levels, hpairwise, hmem => by
    obtain ⟨hpaths, hrest⟩ := List.pairwise_cons.mp hpairwise
    rcases List.mem_cons.mp hmem with rfl | hmem
    · simp
    · have hne : target ≠ level.1 := fun heq => hacyclic target (heq ▸ hpaths (target, args) hmem)
      rw [List.lookup_cons, beq_eq_false_iff_ne.mpr hne]
      exact lookup_eq_some_of_mem hacyclic hrest hmem

/-- Whatever a plain class is seen with, on the way up, is plain. -/
lemma Plain.ascent_plain (hreg : store.Regular) (hedges : store.PlainEdges) {source : Ty}
    {id target : ClassId} (hsource : store.Plain [] source) (hraw : source.rawClass? = some id)
    (htarget : store.wellKnown.isPrimitive target = false) (hbelow : store.Below id target)
    {levels : List (ClassId × List Ty)} (hlevels : store.Ascent target id source.args levels) :
    ∀ level ∈ levels, ∀ arg ∈ level.2, store.PlainArg [] arg := by
  rcases hsource.cases_class hraw with ⟨hfits, -⟩ | ⟨rfl, rfl⟩
  · exact fun level hlevel => (hlevels.plain hreg hedges htarget hfits.2.1.1 hbelow hfits.2.2.2
      hsource.args_plain level hlevel).2
  · have hself := hreg.eq_object hbelow
    subst hself
    cases hlevels with
    | arrive => simp [Ty.args]
    | stop hne => exact absurd rfl hne
    | step hne => exact absurd rfl hne

lemma mem_of_mem_argsAt {target : ClassId} {levels : List (ClassId × List Ty)} {arg : Ty}
    (h : arg ∈ argsAt target levels) : ∃ level ∈ levels, arg ∈ level.2 := by
  cases hlookup : levels.lookup target with
  | none => simp [argsAt, hlookup] at h
  | some found =>
      rw [argsAt, hlookup] at h
      obtain ⟨before, after, hsplit, -⟩ := List.lookup_eq_some_iff.mp hlookup
      exact ⟨(target, found), by simp [hsplit], h⟩

/-- **A walk binds the parameters of its target to the arguments found there.** -/
theorem Ascent.get?_bindLevels_param (hwalk : store.Walkable) {target id : ClassId}
    {args : List Ty} {levels : List (ClassId × List Ty)} (h : store.Ascent target id args levels)
    (htarget : store.wellKnown.isPrimitive target = false) (hid : store.Knows id)
    (hbelow : store.Below id target) {v : TypeVarId} (hv : v ∈ store.paramsOf target) :
    (store.bindLevels .empty levels).get? v = store.assigning target (argsAt target levels) v := by
  obtain ⟨-, -, -, hpairwise⟩ := h.path hwalk htarget hid hbelow
  ext ty
  rw [h.get?_bindLevels_iff hwalk htarget hid hbelow]
  constructor
  · rintro ⟨⟨other, found⟩, hlevel, hassigning⟩
    have hsame : other = target := by
      by_contra hne
      exact hwalk.params_disjoint other target hne (mem_of_assigning hassigning).1 hv
    subst hsame
    rwa [argsAt, lookup_eq_some_of_mem hwalk.acyclic hpairwise hlevel]
  · intro hassigning
    cases hlookup : levels.lookup target with
    | none => simp [argsAt, hlookup, assigning] at hassigning
    | some found =>
        rw [argsAt, hlookup] at hassigning
        obtain ⟨before, after, hsplit, -⟩ := List.lookup_eq_some_iff.mp hlookup
        exact ⟨(target, found), by simp [hsplit], hassigning⟩

section Owners

variable (hreg : store.Regular) {source : Ty} {id target : ClassId} (hsource : store.Owned source)
  (hraw : source.rawClass? = some id) (htarget : store.wellKnown.isPrimitive target = false)
  (hbelow : store.Below id target) {levels : List (ClassId × List Ty)}
  (hlevels : store.Ascent target id source.args levels)

include hreg hsource hraw htarget hbelow hlevels

/-- Whatever a type is seen with, on the way up, is plain but for its owners, which it brings along
from the type. -/
lemma Owned.ascent_owned (hedges : store.PlainEdges) :
    ∀ level ∈ levels, ∀ arg ∈ level.2, store.OwnedArg arg := by
  intro level hlevel arg harg
  have hid := (hsource.reference hraw).1
  have hdropped := hlevels.withoutOwners hreg hedges htarget hid hbelow
  rw [← Ty.args_withoutOwners] at hdropped
  refine .of_bare ?_ (hsource.fit.of_subset fun owner howner => ?_)
  · exact hsource.bare.ascent_plain hreg hedges (by simpa using hraw) htarget hbelow hdropped _
      (List.mem_map_of_mem hlevel) _ (List.mem_map_of_mem harg)
  · obtain ⟨given, hgiven, howner⟩ := Ty.mem_ownersAll.mp (hlevels.mem_owners hreg hedges htarget
      hid hbelow level hlevel (Ty.mem_ownersAll.mpr ⟨arg, harg, howner⟩))
    exact Ty.owners_subset_of_mem_args hgiven howner

/-- **What owners bring along does not show at the target**: the way ends there, and its parameters
are bound anew.  Only on the way to `Object` it may end sooner, and owners bind nothing of that. -/
theorem Owned.get?_bindLevels_param {v : TypeVarId} (hv : v ∈ store.paramsOf target) :
    (store.bindLevels (store.bindOwner source.owner?) levels).get? v =
      store.assigning target (argsAt target levels) v := by
  have hid := (hsource.reference hraw).1
  obtain ⟨-, -, -, hpairwise⟩ := hlevels.path hreg htarget hid hbelow
  rw [← hlevels.get?_bindLevels_param hreg htarget hid hbelow hv]
  ext ty
  rw [hreg.toWalkable.get?_bindLevels v ty levels _ hpairwise,
    hreg.toWalkable.get?_bindLevels v ty levels .empty hpairwise]
  refine or_congr_right (and_congr_right fun hnone => ?_)
  have howner : (store.bindOwner source.owner?).get? v = none := by
    rcases hreg.ascent_ends hlevels htarget hid hbelow with hlast | rfl
    · rcases hsource.bare.cases_class (by simpa using hraw) with ⟨hfits, -⟩ | ⟨-, rfl⟩
      · obtain ⟨⟨other, found⟩, hlevel, rfl⟩ := Option.map_eq_some_iff.mp hlast
        have hmem := List.mem_of_getLast? hlevel
        have hlength : source.args.length = (store.paramsOf id).length := by simpa using hfits.2.2.2
        have hfound := (hlevels.sees hreg htarget hid hbelow _ hmem).arity hreg hlength
        obtain ⟨given, hgiven⟩ := exists_assigning hfound hv
        rw [hnone _ hmem] at hgiven
        cases hgiven
      · exact hsource.get?_bindOwner (hreg.eq_object hbelow ▸ hv)
    · exact hsource.get?_bindOwner hv
  rw [howner, Bindings.get?_empty]

end Owners

/-- Comparing what two lists assign to each parameter is comparing them place by place. -/
lemma forall_lookup_zip_iff (P : Ty → Ty → Prop) : ∀ {params : List TypeVarId}
    (found : List Ty) {args : List Ty}, params.Nodup → args.length = params.length →
    ((∀ v ∈ params, ∀ given wanted, (params.zip found).lookup v = some given →
        (params.zip args).lookup v = some wanted → P given wanted) ↔
      ∀ pair ∈ found.zip args, P pair.1 pair.2)
  | [], _, [], _, _ => by simp
  | [], _, _ :: _, _, hlength => by simp at hlength
  | _ :: _, _, [], _, hlength => by simp at hlength
  | _ :: _, [], _ :: _, _, _ => by simp
  | v :: params, given :: found, wanted :: args, hnodup, hlength => by
    obtain ⟨hv, hrest⟩ := List.nodup_cons.mp hnodup
    have ih := forall_lookup_zip_iff P found hrest (by simpa using hlength)
    simp only [List.zip_cons_cons, List.mem_cons, forall_eq_or_imp, List.lookup_cons_self,
      Option.some.injEq, ← ih]
    refine and_congr (by simp) (forall_congr' fun w => forall_congr' fun hw => ?_)
    have hne : w ≠ v := fun heq => hv (heq ▸ hw)
    simp [List.lookup_cons, beq_eq_false_iff_ne.mpr hne]

/-- What one parameter is assigned in two lists stands at one place of both. -/
lemma mem_zip_of_assigning (hreg : store.Regular) {target : ClassId} {found args : List Ty}
    (hlength : args.length = (store.paramsOf target).length) {v : TypeVarId} {given wanted : Ty}
    (hgiven : store.assigning target found v = some given)
    (hwanted : store.assigning target args v = some wanted) : (given, wanted) ∈ found.zip args := by
  have hall := forall_lookup_zip_iff (fun given wanted => (given, wanted) ∈ found.zip args) found
    (hreg.params_nodup target) hlength
  exact hall.mpr (fun _ hpair => hpair) v (mem_of_assigning hgiven).1 given wanted hgiven hwanted

end Store

namespace Checker

variable {checker : Checker} {late : Prop}

/-! ## One level of the program -/

/-- Comparing with an applied class walks up both sides and compares the arguments found. -/
lemma decides_assignToApplied {walk : WalkDown} {contain : ContainDown} {source target : Ty}
    {id raw : ClassId} {decl : ClassDecl} {sourceMap targetMap : Bindings} {P : Prop}
    (hraw : source.rawClass? = some id) (hdecl : checker.store.class? raw = some decl)
    (hsource : checker.Yields late (checker.answer (walk source raw .empty)) (some sourceMap))
    (htarget : checker.Yields late (checker.answer (walk target raw .empty)) (some targetMap))
    (hfits : checker.Decides late (checker.answer
      (checker.argumentsFit contain source target sourceMap targetMap none decl.edges.params)) P) :
    checker.Decides late
      (checker.answer (checker.assignToApplied walk contain (some source) target raw none)) P := by
  cases source with
  | array => simp [Ty.rawClass?] at hraw
  | _ =>
      simp only [assignToApplied, Option.getD_none, answer_bind]
      refine hsource.bind_decides ?_
      simp only [answer_bind]
      refine htarget.bind_decides ?_
      simpa [checker.edgesFromStore_of_class hdecl] using hfits

/-- Nothing that cannot be seen as an instance of a class is assignable to it. -/
lemma decides_assignToApplied_none {walk : WalkDown} {contain : ContainDown} {source target : Ty}
    {id raw : ClassId} {P : Prop} (hraw : source.rawClass? = some id)
    (hsource : checker.Yields late (checker.answer (walk source raw .empty)) none) (hP : ¬ P) :
    checker.Decides late
      (checker.answer (checker.assignToApplied walk contain (some source) target raw none)) P := by
  cases source with
  | array => simp [Ty.rawClass?] at hraw
  | _ =>
      simp only [assignToApplied, answer_bind]
      exact hsource.bind_decides (.ok (by simp [hP]))

/-- A class is assignable to an applied class if the arguments found on the way there fit, given
that the comparisons of the arguments are decided. -/
theorem decides_assignWithin_app (checker : Checker) (hreg : checker.store.Regular)
    (hedges : checker.store.PlainEdges) {source : Ty} {id target : ClassId} {args : List Ty}
    {owner : Option Ty} (hsource : checker.store.Owned source) (hraw : source.rawClass? = some id)
    (htarget : checker.store.Owned (.applied target args owner))
    (fuel : Nat) (hlate : fuel < checker.store.walkDepth source → late)
    (hlate' : fuel < checker.store.walkDepth (.applied target args owner) → late)
    (hfits : ∀ levels, checker.store.Ascent target id source.args levels →
      ∀ pair ∈ (Store.argsAt target levels).zip args,
        checker.store.OwnedArg pair.1 → checker.store.OwnedArg pair.2 →
        checker.Decides late
          (checker.answer (fitsQuery (checker.containWithin fuel) pair.1 pair.2))
          (checker.store.Fits pair.1.withoutOwners pair.2.withoutOwners)) :
    checker.Decides late
      (checker.answer
        (checker.assignWithin (fuel + 1) (some source) (.applied target args owner) none))
      (checker.store.Sub source.withoutOwners (Ty.applied target args owner).withoutOwners) := by
  have hid := hsource.reference hraw
  have hraw' : source.withoutOwners.rawClass? = some id := by simpa using hraw
  obtain ⟨⟨decl, hdecl⟩, hprim⟩ := htarget.reference rfl
  have hbare : (Ty.applied target args owner).withoutOwners =
      .app target (args.map Ty.withoutOwners) := by
    rw [Ty.withoutOwners, Ty.withoutOwnersAll_eq_map]
    rfl
  simp only [assignWithin, assignStep]
  refine decides_same_or hsource ?_
  rw [hbare]
  by_cases hbelow : checker.store.Below id target
  swap
  · refine decides_assignToApplied_none hraw
      ((yields_walkWithin_none hreg hid hraw hprim hbelow fuel).mono hlate) fun h => ?_
    exact hbelow (Store.Sub.below_of_app hraw' h)
  obtain ⟨levels, hlevels, -⟩ :=
    hreg.exists_ascent hprim _ source.args (Nat.lt_succ_self _) hid.1 hbelow
  have harrive : checker.store.Ascent target target args [(target, args)] := .arrive args
  refine decides_assignToApplied hraw hdecl
    ((yields_walkWithin hreg hsource hraw hprim hbelow hlevels fuel).mono hlate)
    ((yields_walkWithin hreg htarget rfl hprim (Or.inl rfl) harrive fuel).mono hlate') ?_
  have hparams : decl.edges.params = checker.store.paramsOf target := (Store.paramsOf_eq hdecl).symm
  have hsourceGet {v : TypeVarId} (hv : v ∈ checker.store.paramsOf target) :=
    hsource.get?_bindLevels_param hreg hraw hprim hbelow hlevels hv
  have htargetGet {v : TypeVarId} (hv : v ∈ checker.store.paramsOf target) :=
    htarget.get?_bindLevels_param hreg rfl hprim (Or.inl rfl) harrive hv
  rw [Store.argsAt, List.lookup_cons_self, Option.getD_some] at htargetGet
  have hgiven {arg : Ty} (harg : arg ∈ Store.argsAt target levels) :
      checker.store.OwnedArg arg := by
    obtain ⟨level, hlevel, hmem⟩ := Store.mem_of_mem_argsAt harg
    exact hsource.ascent_owned hreg hraw hprim hbelow hlevels hedges level hlevel arg hmem
  have hwanted : ∀ arg ∈ args, checker.store.OwnedArg arg := htarget.args_owned
  have hlength := htarget.length_args
  rw [hparams]
  refine (decides_argumentsFit _ hsource
    (fun given wanted => checker.store.Fits given.withoutOwners wanted.withoutOwners)
    (checker.store.paramsOf target) (fun v hv => ?_) (fun v hv given hget => ?_)
    (fun v hv given wanted hget hget' => ?_)).congr ?_
  · obtain ⟨wanted, hassigning⟩ := Store.exists_assigning hlength hv
    exact ⟨wanted, (htargetGet hv).trans hassigning,
      (hwanted wanted (Store.mem_of_assigning hassigning).2).ground⟩
  · rw [hsourceGet hv] at hget
    exact (hgiven (Store.mem_of_assigning hget).2).ground
  · rw [hsourceGet hv] at hget
    rw [htargetGet hv] at hget'
    have hpair := Store.mem_zip_of_assigning hreg hlength hget hget'
    exact hfits levels hlevels (given, wanted) hpair (hgiven (List.of_mem_zip hpair).1)
      (hwanted wanted (List.of_mem_zip hpair).2)
  · have hdropped := hlevels.withoutOwners hreg hedges hprim hid.1 hbelow
    rw [← Ty.args_withoutOwners] at hdropped
    rw [Store.sub_app_iff hraw' hbelow hdropped, Store.argsAt_withoutOwners, List.zip_map,
      List.forall_mem_map]
    refine Iff.trans ?_ (Store.forall_lookup_zip_iff
      (fun given wanted => checker.store.Fits given.withoutOwners wanted.withoutOwners) _
      (hreg.params_nodup target) hlength)
    refine forall_congr' fun v => forall_congr' fun hv => ?_
    rw [hsourceGet hv, htargetGet hv]
    rfl

/-- An array is assignable to one whose component takes its component, given that this is
decided. -/
theorem decides_assignWithin_array (checker : Checker) {given wanted : Ty}
    (hgiven : checker.store.Owned (.array given)) (hwanted : checker.store.Owned (.array wanted))
    (fuel : Nat)
    (hcomponents : checker.store.Owned given → checker.store.Owned wanted →
      checker.Decides late (checker.answer (checker.assignWithin fuel (some given) wanted none))
        (checker.store.Sub given.withoutOwners wanted.withoutOwners)) :
    checker.Decides late
      (checker.answer (checker.assignWithin (fuel + 1) (some (.array given)) (.array wanted) none))
      (checker.store.Sub (.array given.withoutOwners) (.array wanted.withoutOwners)) := by
  simp only [assignWithin, assignStep]
  change checker.Decides late _
    (checker.store.Sub (Ty.array given).withoutOwners (Ty.array wanted).withoutOwners)
  refine decides_same_or hgiven ?_
  rw [assignToArray, assignComponent, Ty.withoutOwners, Ty.withoutOwners]
  have hprimitive : ∀ {ty : Ty}, checker.store.Owned ty → checker.isPrimitiveTy ty = false := by
    intro ty h
    cases ty with
    | cls id => exact (h.reference rfl).2
    | _ => rfl
  rcases hgiven.component with hg | ⟨id, hid, rfl⟩
  · rcases hwanted.component with hw | ⟨id, hid, rfl⟩
    · simp only [hg.isWildcard, hw.isWildcard, hprimitive hg, hprimitive hw, Bool.or_self,
        Bool.false_eq_true, if_false]
      exact (hcomponents hg hw).congr (Store.sub_array_iff hg.bare hw.bare).symm
    · have hid' : checker.isPrimitiveTy (.cls id) = true := hid
      have hcls : (Ty.cls id).isWildcard = false := rfl
      rw [Ty.withoutOwners, Store.sub_to_primitives_iff hid, Ty.withoutOwners_eq_cls_iff]
      simp only [hg.isWildcard, hcls, hid', Bool.or_true, Bool.false_eq_true, if_false,
        if_true, answer_pure]
      exact .ok Ty.beq_cls_iff
  · have hid' : checker.isPrimitiveTy (.cls id) = true := hid
    have hcls : (Ty.cls id).isWildcard = false := rfl
    have hwild : wanted.isWildcard = false := by
      rcases hwanted.component with hw | ⟨_, _, rfl⟩
      · exact hw.isWildcard
      · rfl
    rw [Ty.withoutOwners, Store.sub_primitives_iff hid, Ty.withoutOwners_eq_cls_iff]
    simp only [hwild, hcls, hid', Bool.true_or, Bool.false_eq_true, if_false, if_true,
      answer_pure]
    exact .ok Ty.cls_beq_iff

/-! ## The whole program -/

/-- Nothing else is assignable to an array, and an array is assignable to no applied class. -/
lemma decides_assignWithin_mixed {source target : Ty} (hsource : checker.store.Owned source)
    (hshapes : source.isArray = true ∧ target.isApplied = true ∨
      (∃ id, source.rawClass? = some id) ∧ target.isArray = true) (fuel : Nat) :
    checker.Decides late
      (checker.answer (checker.assignWithin (fuel + 1) (some source) target none))
      (checker.store.Sub source.withoutOwners target.withoutOwners) := by
  simp only [assignWithin, assignStep]
  refine decides_same_or hsource ?_
  rcases hshapes with ⟨harray, happlied⟩ | ⟨⟨id, hraw⟩, harray⟩
  · cases source with
    | array component =>
        cases target with
        | applied => exact .ok (iff_of_false (by simp) Store.not_sub_array_app)
        | _ => simp [Ty.isApplied] at happlied
    | _ => simp [Ty.isArray] at harray
  · cases target with
    | array component =>
        have hraw' : source.withoutOwners.rawClass? = some id := by simpa using hraw
        have hnot : ¬ checker.store.Sub source.withoutOwners (.array component.withoutOwners) :=
          Store.not_sub_class_array hraw'
        cases source with
        | cls => exact .ok (iff_of_false (by simp) hnot)
        | applied => exact .ok (iff_of_false (by simp) hnot)
        | _ => simp [Ty.rawClass?] at hraw
    | _ => simp [Ty.isArray] at harray

/-- **What the program answers is right**: under any limit, it tells whether the rules derive that
the source is a subtype, both without their owners, or reports the limit. -/
theorem decides_assignWithin (checker : Checker) (hreg : checker.store.Regular)
    (hedges : checker.store.PlainEdges) :
    ∀ (fuel : Nat) {source target : Ty}, checker.store.Owned source →
      checker.store.Owned target →
      checker.Decides True (checker.answer (checker.assignWithin fuel (some source) target none))
        (checker.store.Sub source.withoutOwners target.withoutOwners) := by
  intro fuel
  induction fuel using Nat.strong_induction_on with
  | _ fuel ih =>
      intro source target hsource htarget
      cases fuel with
      | zero => exact .of_late trivial
      | succ fuel =>
          cases target with
          | cls target =>
              exact (decides_assignWithin_cls checker hreg hsource (htarget.reference rfl).2 _).mono
                fun _ => trivial
          | var v => exact absurd htarget.ground (by simp [Ty.Ground, Ty.vars])
          | wildcard => exact absurd htarget.isWildcard (by simp [Ty.isWildcard])
          | applied raw args owner =>
              rcases hsource.class_or_array with ⟨id, hraw⟩ | harray
              · refine decides_assignWithin_app checker hreg hedges hsource hraw htarget fuel
                  (fun _ => trivial) (fun _ => trivial) fun _ _ pair _ hgiven hwanted => ?_
                refine decides_fitsQuery checker hreg hgiven hwanted fuel (fun _ => trivial)
                  (fun bound hbound => ?_) fun bound lower hbound hlower => ?_
                · exact ih (fuel - 1) (by omega) (hgiven.upperOf_owned hreg)
                    (hbound ▸ hwanted).bound_of_extending
                · exact ih (fuel - 1) (by omega) (hbound ▸ hwanted).bound_of_superOf
                    (hgiven.lowerOf?_owned hlower)
              · exact decides_assignWithin_mixed hsource (Or.inl ⟨harray, rfl⟩) fuel
          | array wanted =>
              rcases hsource.class_or_array with hraw | harray
              · exact decides_assignWithin_mixed hsource (Or.inr ⟨hraw, rfl⟩) fuel
              · cases source with
                | array given =>
                    exact decides_assignWithin_array checker hsource htarget fuel
                      (ih fuel (Nat.lt_succ_self fuel))
                | _ => simp [Ty.isArray] at harray

end Checker

namespace Store

variable {store : Store}

/-! ## Enough fuel -/

/-- A bound for each member of a list gives one for all of them. -/
lemma exists_bound_of_forall {α : Type} {P : α → Nat → Prop}
    (hmono : ∀ a m n, m ≤ n → P a m → P a n) :
    ∀ list : List α, (∀ a ∈ list, ∃ n, P a n) → ∃ n, ∀ a ∈ list, P a n
  | [], _ => ⟨0, by simp⟩
  | a :: rest, h => by
    obtain ⟨m, hm⟩ := h a (by simp)
    obtain ⟨n, hn⟩ := exists_bound_of_forall hmono rest fun b hb => h b (by simp [hb])
    refine ⟨max m n, fun b hb => ?_⟩
    rcases List.mem_cons.mp hb with rfl | hb
    · exact hmono b m _ (Nat.le_max_left _ _) hm
    · exact hmono b n _ (Nat.le_max_right _ _) (hn b hb)

/-- With fuel `n`, and under every limit, the question whether one type is assignable to another is
decided. -/
def AssignDepth (store : Store) (source target : Ty) (n : Nat) : Prop :=
  store.Owned source → store.Owned target → ∀ (limits : Limits) (fuel : Nat),
    let checker : Checker := { store := store, limits := limits }
    checker.Decides (fuel < n)
      (checker.answer (checker.assignWithin fuel (some source) target none))
      (store.Sub source.withoutOwners target.withoutOwners)

/-- With fuel `n`, and under every limit, the question whether an argument fits is decided. -/
def FitsDepth (store : Store) (given wanted : Ty) (n : Nat) : Prop :=
  store.OwnedArg given → store.OwnedArg wanted → ∀ (limits : Limits) (fuel : Nat),
    let checker : Checker := { store := store, limits := limits }
    checker.Decides (fuel < n)
      (checker.answer (Checker.fitsQuery (checker.containWithin fuel) given wanted))
      (store.Fits given.withoutOwners wanted.withoutOwners)

lemma FitsDepth.mono {given wanted : Ty} {m n : Nat} (hle : m ≤ n)
    (h : store.FitsDepth given wanted m) : store.FitsDepth given wanted n :=
  fun hgiven hwanted limits fuel => (h hgiven hwanted limits fuel).mono fun hlt => by omega

/-- Given enough fuel it is decided whether one type is assignable to another, for all types of
which these are left without owners. -/
def AssignBounded (store : Store) (bare bare' : Ty) : Prop :=
  ∀ source target : Ty, source.withoutOwners = bare → target.withoutOwners = bare' →
    ∃ n, store.AssignDepth source target n

/-- Given enough fuel it is decided whether one argument fits another. -/
def FitsBounded (store : Store) (bare bare' : Ty) : Prop :=
  ∀ given wanted : Ty, given.withoutOwners = bare → wanted.withoutOwners = bare' →
    ∃ n, store.FitsDepth given wanted n

section Bounds

variable (hreg : store.Regular) {bare bare' : Ty} {target : ClassId}

include hreg

lemma assignBounded_cls : store.AssignBounded bare (.cls target) := by
  intro source _ _ htarget
  obtain rfl := Ty.withoutOwners_eq_cls_iff.mp htarget
  refine ⟨1, fun hsource htarget limits fuel => ?_⟩
  exact (Checker.decides_assignWithin_cls ⟨store, limits⟩ hreg hsource (htarget.reference rfl).2
    fuel).mono fun h => by omega

lemma assignBounded_app (hedges : store.PlainEdges) {id : ClassId} {args : List Ty}
    {levels : List (ClassId × List Ty)} (hraw : bare.rawClass? = some id)
    (hbelow : store.Below id target) (hlevels : store.Ascent target id bare.args levels)
    (hfits : ∀ pair ∈ (argsAt target levels).zip args, store.FitsBounded pair.1 pair.2) :
    store.AssignBounded bare (.app target args) := by
  rintro source _ rfl htarget
  obtain ⟨args, owner, rfl, rfl⟩ := Ty.exists_of_withoutOwners_eq_app htarget
  by_cases howned : store.Owned source ∧ store.Owned (.applied target args owner)
  swap
  · exact ⟨0, fun hsource htarget => absurd ⟨hsource, htarget⟩ howned⟩
  rw [Ty.rawClass?_withoutOwners] at hraw
  have hknown := (howned.1.reference hraw).1
  have hprim := (howned.2.reference rfl).2
  obtain ⟨found, hfound, -⟩ :=
    hreg.exists_ascent hprim _ source.args (Nat.lt_succ_self _) hknown hbelow
  -- The levels are those that are found with owners, and the pairs those that are compared.
  have hdropped := hfound.withoutOwners hreg hedges hprim hknown hbelow
  rw [← Ty.args_withoutOwners] at hdropped
  rw [hlevels.unique hdropped, argsAt_withoutOwners, List.zip_map, List.forall_mem_map] at hfits
  obtain ⟨n, hn⟩ := exists_bound_of_forall
    (P := fun (pair : Ty × Ty) n => store.FitsDepth pair.1 pair.2 n)
    (fun _ _ _ hle h => h.mono hle) _ fun pair hpair => hfits pair hpair pair.1 pair.2 rfl rfl
  refine ⟨max n (max (store.walkDepth source) (store.walkDepth (.applied target args owner))) + 1,
    fun hsource htarget limits fuel => ?_⟩
  cases fuel with
  | zero => exact .of_late (Nat.succ_pos _)
  | succ fuel =>
      refine Checker.decides_assignWithin_app ⟨store, limits⟩ hreg hedges hsource
        hraw htarget fuel (fun hlt => ?_) (fun hlt => ?_)
        fun levels hlevels pair hpair hgiven hwanted => ?_
      · simp only at hlt
        omega
      · simp only at hlt
        omega
      · rw [hlevels.unique hfound] at hpair
        exact (hn pair hpair hgiven hwanted limits fuel).mono fun hlt => by omega

omit hreg in
lemma assignBounded_array (h : store.AssignBounded bare bare') :
    store.AssignBounded (.array bare) (.array bare') := by
  intro source target hsource htarget
  obtain ⟨given, rfl, hgiven⟩ := Ty.exists_of_withoutOwners_eq_array hsource
  obtain ⟨wanted, rfl, hwanted⟩ := Ty.exists_of_withoutOwners_eq_array htarget
  obtain ⟨n, hn⟩ := h given wanted hgiven hwanted
  refine ⟨n + 1, fun hsource htarget limits fuel => ?_⟩
  cases fuel with
  | zero => exact .of_late (Nat.succ_pos _)
  | succ fuel =>
      exact Checker.decides_assignWithin_array ⟨store, limits⟩ hsource htarget fuel
        fun hgiven hwanted => (hn hgiven hwanted limits fuel).mono fun hlt => by omega

omit hreg in
lemma assignBounded_primitives {id : ClassId} (hid : store.wellKnown.isPrimitive id = true) :
    store.AssignBounded (.array (.cls id)) (.array bare') := by
  intro source target hsource htarget
  obtain ⟨given, rfl, hgiven⟩ := Ty.exists_of_withoutOwners_eq_array hsource
  obtain ⟨wanted, rfl, -⟩ := Ty.exists_of_withoutOwners_eq_array htarget
  obtain rfl := Ty.withoutOwners_eq_cls_iff.mp hgiven
  refine ⟨1, fun hsource htarget limits fuel => ?_⟩
  cases fuel with
  | zero => exact .of_late Nat.one_pos
  | succ fuel =>
      exact Checker.decides_assignWithin_array ⟨store, limits⟩ hsource htarget fuel
        fun hgiven _ => absurd hid (by simp [(hgiven.reference rfl).2])

omit hreg in
lemma fitsBounded_same : store.FitsBounded bare bare := by
  rintro given wanted rfl hwanted
  refine ⟨0, fun _ _ limits fuel => ?_⟩
  have hsame : (given == wanted) = true := Ty.beq_iff.mpr hwanted.symm
  simpa [Checker.fitsQuery, hsame] using Checker.Decides.ok (iff_of_true rfl (hwanted ▸ .same))

lemma fitsBounded_unbounded : store.FitsBounded bare .unbounded := by
  intro given _ _ hwanted
  obtain rfl := Ty.eq_unbounded_of_withoutOwners hwanted
  exact ⟨2, fun hgiven hwanted limits fuel => Checker.decides_fitsQuery ⟨store, limits⟩
    hreg hgiven hwanted fuel (fun _ => by omega)
    (fun _ h => by simp [Ty.unbounded, Ty.extending] at h)
    fun _ _ h => by simp [Ty.unbounded, Ty.superOf] at h⟩

lemma fitsBounded_extending (h : store.AssignBounded (store.upperOf bare) bare') :
    store.FitsBounded bare (.extending bare') := by
  rintro given _ rfl hwanted
  obtain ⟨bound, rfl, rfl⟩ := Ty.exists_of_withoutOwners_eq_extending hwanted
  obtain ⟨n, hn⟩ := h (store.upperOf given) bound (withoutOwners_upperOf given) rfl
  refine ⟨n + 2, fun hgiven hwanted limits fuel => Checker.decides_fitsQuery ⟨store, limits⟩
    hreg hgiven hwanted fuel (fun _ => by omega)
    (fun bound hbound => ?_) fun _ _ h => by simp [Ty.extending, Ty.superOf] at h⟩
  simp only [Ty.extending, Ty.wildcard.injEq, List.cons.injEq, and_true] at hbound
  subst hbound
  exact (hn (hgiven.upperOf_owned hreg) hwanted.bound_of_extending limits (fuel - 1)).mono
    fun hlt => by omega

lemma fitsBounded_superOf {lower : Ty} (hlower : lowerOf? bare = some lower)
    (h : store.AssignBounded bare' lower) : store.FitsBounded bare (.superOf bare') := by
  rintro given _ rfl hwanted
  obtain ⟨bound, rfl, rfl⟩ := Ty.exists_of_withoutOwners_eq_superOf hwanted
  rw [lowerOf?_withoutOwners, Option.map_eq_some_iff] at hlower
  obtain ⟨below, hbelow, hbare⟩ := hlower
  obtain ⟨n, hn⟩ := h bound below rfl hbare
  refine ⟨n + 2, fun hgiven hwanted limits fuel => Checker.decides_fitsQuery ⟨store, limits⟩
    hreg hgiven hwanted fuel (fun _ => by omega)
    (fun _ h => by simp [Ty.extending, Ty.superOf] at h) fun bound lower hbound hlower => ?_⟩
  simp only [Ty.superOf, Ty.wildcard.injEq, List.cons.injEq, and_true, true_and] at hbound
  subst hbound
  rw [hbelow, Option.some.injEq] at hlower
  subst hlower
  exact (hn hwanted.bound_of_superOf (hgiven.lowerOf?_owned hbelow) limits (fuel - 1)).mono
    fun hlt => by omega

end Bounds

mutual

/-- **Whatever the rules derive is found**, owners or not, given enough fuel. -/
theorem Sub.bounded (hreg : store.Regular) (hedges : store.PlainEdges) {source target : Ty} :
    store.Sub source target → store.AssignBounded source target
  | .toClass _ _ => assignBounded_cls hreg
  | .toObject => assignBounded_cls hreg
  | .toMarker _ _ => assignBounded_cls hreg
  | .toApplied hraw hbelow hlevels hfits =>
    assignBounded_app hreg hedges hraw hbelow hlevels
      fun pair hpair => (hfits pair hpair).bounded hreg hedges
  | .arrays _ _ h => assignBounded_array (h.bounded hreg hedges)
  | .primitives hid => assignBounded_primitives hid

theorem Fits.bounded (hreg : store.Regular) (hedges : store.PlainEdges) {given wanted : Ty} :
    store.Fits given wanted → store.FitsBounded given wanted
  | .same => fitsBounded_same
  | .any => fitsBounded_unbounded hreg
  | .extending h => fitsBounded_extending hreg (h.bounded hreg hedges)
  | .superOf hlower h => fitsBounded_superOf hreg hlower (h.bounded hreg hedges)

end

/-- Under any limit that is large enough, the answer is yes where the rules derive that. -/
theorem Sub.answer_assignable (hreg : store.Regular) (hedges : store.PlainEdges)
    {source target : Ty} (hsource : store.Owned source) (htarget : store.Owned target)
    (hsub : store.Sub source.withoutOwners target.withoutOwners) :
    ∃ n, ∀ limits : Limits, n ≤ limits.maxDepth →
      let checker : Checker := { store := store, limits := limits }
      checker.answer (checker.assignable (some source) target none) = .ok true := by
  obtain ⟨n, hn⟩ := hsub.bounded hreg hedges source target rfl rfl
  refine ⟨n, fun limits hle => ?_⟩
  intro checker
  refine (hn hsource htarget limits checker.fuel).eq_ok_true (fun hlt => ?_) hsub
  have hfuel : checker.fuel = limits.maxDepth + 1 := rfl
  omega

end Store

/-! ## The two together -/

/-- **Assignability decides subtyping of plain types**: whatever the limit, the answer is right or
the limit is reported, and every subtype is found under any limit that is large enough. -/
theorem assignable_iff_sub {store : Store} (hreg : store.Regular) (hedges : store.PlainEdges)
    {source target : Ty} (hsource : store.Plain [] source) (htarget : store.Plain [] target) :
    (∀ limits : Limits,
      let checker : Checker := { store := store, limits := limits }
      checker.answer (checker.assignable (some source) target none) = .error checker.tooDeep ∨
        ∃ b, checker.answer (checker.assignable (some source) target none) = .ok b ∧
          (b = true ↔ store.Sub source target)) ∧
    (store.Sub source target → ∃ n, ∀ limits : Limits, n ≤ limits.maxDepth →
      let checker : Checker := { store := store, limits := limits }
      checker.answer (checker.assignable (some source) target none) = .ok true) := by
  constructor
  · intro limits checker
    obtain ⟨b, hb | ⟨herror, -⟩, hiff⟩ := Checker.decides_assignWithin checker hreg
      hedges checker.fuel hsource.owned htarget.owned
    · rw [hsource.withoutOwners_eq, htarget.withoutOwners_eq] at hiff
      exact Or.inr ⟨b, hb, hiff⟩
    · exact Or.inl herror
  · intro hsub
    refine Store.Sub.answer_assignable hreg hedges hsource.owned htarget.owned ?_
    rwa [hsource.withoutOwners_eq, htarget.withoutOwners_eq]

/-- An `ArrayList<String>` is found to be a `Collection<? extends CharSequence>`. -/
theorem arrayList_assignable_to_collection : ∃ n, ∀ limits : Limits, n ≤ limits.maxDepth →
    let checker : Checker := { store := .collections, limits := limits }
    checker.answer (checker.assignable (some (.app ⟨29⟩ [.cls ⟨5⟩]))
      (.app ⟨24⟩ [.extending (.cls ⟨3⟩)]) none) = .ok true := by
  have hsource : Store.collections.Plain [] (.app ⟨29⟩ [.cls ⟨5⟩]) :=
    Store.Plain.of_isPlain (by decide)
  have htarget : Store.collections.Plain [] (.app ⟨24⟩ [.extending (.cls ⟨3⟩)]) :=
    Store.Plain.of_isPlain (by decide)
  have hstring : Store.collections.Extends ⟨5⟩ ⟨3⟩ :=
    .of_mem (.cls ⟨3⟩) rfl (.tail _ (.tail _ (.tail _ (.head _)))) rfl
  refine (assignable_iff_sub Store.collections_regular Store.collections_plainEdges hsource
    htarget).2 (.toApplied rfl Store.collections_arrayList_below
      (.step (by decide) rfl rfl (.step (by decide) rfl rfl (.arrive _))) fun pair hpair => ?_)
  have hmem : pair ∈ [((.cls ⟨5⟩, .extending (.cls ⟨3⟩)) : Ty × Ty)] := hpair
  rw [List.mem_singleton.mp hmem]
  exact .extending (.toClass rfl (Or.inr (Or.inr (.single hstring))))

/-- `Object` applied to no arguments takes every class, one from which no edges lead to `Object`
included. -/
theorem cloneable_assignable_to_applied_object :
    let checker : Checker := { store := .core }
    checker.answer (checker.assignable (some (.cls ⟨1⟩)) (.app ⟨0⟩ []) none) = .ok true ∧
      Store.core.Regular ∧ Store.core.PlainEdges ∧
      Store.core.Plain [] (.cls ⟨1⟩) ∧ Store.core.Plain [] (.app ⟨0⟩ []) ∧
      (⟨1⟩ : ClassId) ≠ ⟨0⟩ ∧ ¬ TransGen Store.core.Extends ⟨1⟩ ⟨0⟩ := by
  refine ⟨rfl, Store.core_regular, Store.core_plainEdges,
    Store.Plain.of_isPlain (by decide),
    Store.Plain.of_isPlain (by decide), by decide, fun hpath => ?_⟩
  obtain ⟨parent, ⟨decl, hdecl, edge, hedge, -⟩, -⟩ := TransGen.head'_iff.mp hpath
  obtain rfl : decl = { name := "java.lang.Cloneable", kind := .interface } :=
    (Option.some.inj hdecl).symm
  simp [Edges.supertypes, ClassDecl.edges] at hedge

end JavaGenerics
