import JavaGenerics.Proofs.InferredArguments

/-!
# The inference inverts the walk

Applied to arguments, a class is seen as an instance of a class above it.  From that instance alone
the arguments can be inferred again, as long as each class on the way hands all its parameters on:
a parameter that is dropped is gone, and of one that is buried in another argument the inference
does not know.

* `Store.PassesAllUp` — every class on the way passes each of its parameters as an argument of its
  own, perhaps several times and beside others; then all parameters are passed up to the end
  (`PassesAllUp.exists_passed`).
* `Checker.exists_answer_viewAs` — the walk binds the parameters at the end of the way to what is
  passed up, with the arguments put in.
* `Checker.exists_answer_inferWithin` — the inference comes to an answer, which is to what is wanted
  as `Checker.Inferred` says.
* `Checker.inferArguments_of_seenFrom` — **so the inference gives back the arguments with which the
  walk set out.**
-/

namespace JavaGenerics

open Relation

namespace Store

variable {store : Store} {target id : ClassId}

/-! ## Handing all parameters on -/

/-- Along the edges that are chosen toward the target, every class short of it passes each of its
own parameters as an argument. -/
inductive PassesAllUp (store : Store) (target : ClassId) : ClassId → Prop
  | arrive : PassesAllUp store target target
  | step {id parent : ClassId} {decl : ClassDecl} {edge : Ty} (hne : id ≠ target)
      (hdecl : store.class? id = some decl) (hedge : edge ∈ decl.edges.supertypes)
      (hraw : edge.rawClass? = some parent) (hnext : store.nextToward id target = .ok (some edge))
      (hall : ∀ v ∈ store.paramsOf id, Ty.var v ∈ edge.args)
      (hrest : PassesAllUp store target parent) : PassesAllUp store target id

/-- **What is passed up then includes all parameters of the class at the bottom.** -/
lemma PassesAllUp.exists_passed (hwalk : store.Walkable) (h : store.PassesAllUp target id) :
    ∃ passed, store.PassedUp target id passed ∧ ∀ v ∈ store.paramsOf id, Ty.var v ∈ passed := by
  induction h with
  | arrive => exact ⟨_, .arrive, fun v hv => List.mem_map.mpr ⟨v, hv, rfl⟩⟩
  | @step id parent decl edge hne hdecl hedge hraw hnext hall hrest ih =>
      obtain ⟨passed, hpassed, hvars⟩ := ih
      have hlength := (hwalk.fits hdecl hedge hraw).2.2.2
      refine ⟨_, .step hne hdecl hedge hraw hnext hpassed, fun v hv => ?_⟩
      -- The parameter of the parent in whose place the parameter stands.
      have hplaces : edge.args = ((store.paramsOf parent).zip edge.args).map Prod.snd :=
        (List.map_snd_zip hlength.le).symm
      have hmem := hall v hv
      rw [hplaces, List.mem_map] at hmem
      obtain ⟨⟨w, ty⟩, hplace, rfl⟩ := hmem
      have hassigned := (assigning_eq_some_iff (hwalk.params_nodup parent)).mpr hplace
      exact List.mem_map.mpr ⟨.var w, hvars w (List.of_mem_zip hplace).1, by
        rw [Ty.subst, hassigned, Option.getD_some]⟩

/-- What is passed up from a class that is no primitive arrives at one that is none. -/
lemma PassedUp.reference (hwalk : store.Walkable) {passed : List Ty}
    (h : store.PassedUp target id passed) (hid : store.Reference id) : store.Reference target := by
  induction h with
  | arrive => exact hid
  | step _ hdecl hedge hraw _ _ ih => exact ih (hwalk.fits hdecl hedge hraw).2.1

end Store

namespace Checker

variable {checker : Checker}

/-! ## Up: what the walk binds -/

/-- **A walk from an instance goes on from the bindings of its arguments**, whatever class it is an
instance of. -/
lemma answer_walkWithin_instance {id target : ClassId} {decl : ClassDecl}
    (hdecl : checker.store.class? id = some decl) {args : List Ty}
    (hlength : args.length = (checker.store.paramsOf id).length) (hargs : Ty.varsAll args = [])
    (hconverts : checker.answer (checker.classConverts id target) = .ok true) (hne : id ≠ target)
    {edge : Ty} (hnext : checker.store.nextToward id target = .ok (some edge))
    {fuel : Nat} (hfuel : Ty.nestingAll args ≤ fuel) (map : Bindings) :
    checker.answer (checker.walkWithin (fuel + 1) (.app id args) target map) =
      checker.answer
        (checker.walkWithin fuel edge target (map.bindAll (checker.store.paramsOf id) args)) := by
  have hparams : decl.edges.params = checker.store.paramsOf id := (Store.paramsOf_eq hdecl).symm
  have hbind := checker.bindArguments_ground hlength.symm hargs hfuel map map
  simp only [Ty.app, walkWithin, walkStep, walkApplied, answer_bind, hconverts, ok_bind, if_true,
    walkOwner, answer_pure, answer_edgesOf, checker.edgesFromStore_of_class hdecl, hparams,
    if_neg (not_not_intro hlength.symm), answer_lift, hbind, if_neg hne, answer_walkParent, hnext]

/-- **The parameters at the end of the way are bound to what is passed up**, with the arguments put
in. -/
theorem exists_answer_viewAs (checker : Checker) (hwalk : checker.store.Walkable)
    {id target : ClassId} {args passed : List Ty} (hid : checker.store.Knows id)
    (hconverts : checker.answer (checker.classConverts id target) = .ok true)
    (hlength : args.length = (checker.store.paramsOf id).length) (hargs : Ty.varsAll args = [])
    (hpassed : checker.store.PassedUp target id passed)
    (hdepth : checker.store.viewDepth args ≤ checker.limits.maxDepth) :
    ∃ bound, checker.answer (checker.viewAs (.app id args) target .empty) = .ok (some bound) ∧
      ∀ v ∈ checker.store.paramsOf target, bound.get? v = checker.store.assigning target
        (passed.map (Ty.subst (checker.store.assigning id args))) v := by
  have hlimit := hwalk.lt_viewDepth hid (Nat.le_add_right (Ty.deepest args) _)
  have hnesting : Ty.nestingAll args ≤ checker.limits.maxDepth := by
    have := Ty.nestingAll_le_deepest args
    omega
  obtain ⟨decl, hdecl⟩ := hid
  cases hpassed with
  | arrive =>
      have hparams : decl.params = checker.store.paramsOf id := (Store.paramsOf_eq hdecl).symm
      have hself := checker.answer_walkWithin_own hdecl (hparams ▸ hlength)
        (fun ty (h : none = some ty) => nomatch h) checker.limits.maxDepth .empty
      rw [hparams, checker.bindArguments_ground hlength.symm hargs hnesting] at hself
      refine ⟨_, hself, fun v hv => ?_⟩
      rw [Store.map_subst_assigning_params (hwalk.params_nodup id) hlength,
        Bindings.get?_bindAll _ _ (hwalk.params_nodup id), Bindings.get?_empty, Option.or_none]
      rfl
  | @step _ parent decl' edge passed hne hdecl' hedge hraw hnext hrest =>
      have hfits := hwalk.fits hdecl' hedge hraw
      have htarget := (hrest.reference hwalk hfits.2.1).2
      have hpath := (Store.PassedUp.step hne hdecl' hedge hraw hnext hrest).path
      obtain ⟨levels, hascent, hmem⟩ :=
        (Store.PassedUp.step hne hdecl' hedge hraw hnext hrest).exists_ascent hwalk hlength
      have hget (v : TypeVarId) (hv : v ∈ checker.store.paramsOf target) :=
        hascent.get?_bindLevels_param hwalk htarget ⟨decl, hdecl⟩ (.of_path hpath) hv
      rw [hascent.argsAt_eq hwalk htarget ⟨decl, hdecl⟩ (.of_path hpath) hmem] at hget
      refine ⟨_, ?_, hget⟩
      cases hascent with
      | arrive => exact absurd rfl hne
      | stop _ hnone =>
          rw [hnext] at hnone
          exact absurd hnone (by simp)
      | @step _ parent' _ edge' levels _ hnext' hraw' hrest' =>
          rw [hnext] at hnext'
          obtain rfl := Option.some.inj (Except.ok.inj hnext')
          rw [hraw] at hraw'
          obtain rfl := Option.some.inj hraw'
          refine (answer_walkWithin_instance hdecl hlength hargs hconverts hne hnext hnesting
            .empty).trans ?_
          refine (checker.yields_walkWithin_of_applies hwalk
            (.of_edge hwalk hlength hargs _ hdecl' hedge hfits) htarget (.of_path hrest.path) hrest'
            checker.limits.maxDepth (Store.nestingAll_edge_le hdecl' hedge) le_rfl).resolve_right
            fun hlate => absurd hlate.2 ?_
          omega

/-! ## Down: what is inferred -/

/-- **One step of the inference**: what is inferred for the next class on the way is copied to the
parameters that are passed to it. -/
lemma answer_inferWithin_succ {id raw parent : ClassId} {decl : ClassDecl} {edge : Ty}
    (hdecl : checker.store.class? id = some decl) (hne : id ≠ raw)
    (hconverts : checker.answer (checker.classConverts id raw) = .ok true)
    (hnext : checker.store.nextToward id raw = .ok (some edge))
    (hfits : checker.store.FitsClass edge parent) (superType : Ty) (fuel : Nat) :
    checker.answer (checker.inferWithin raw superType (fuel + 1) id) =
      (checker.answer (checker.inferWithin raw superType fuel parent)).map (Option.map
        (copyArguments (checker.store.paramsOf id) (checker.store.paramsOf parent) edge.args)) := by
  simp only [inferWithin, answer_bind, hconverts, ok_bind, if_true, if_neg hne,
    answer_parentToward, hnext]
  cases edge with
  | cls other =>
      obtain rfl := Option.some.inj hfits.1
      have hcopied : copyArguments (checker.store.paramsOf id) (checker.store.paramsOf other)
          (Ty.cls other).args = fun map => map := funext (copyArguments_of_nil _ _)
      rw [hcopied]
      cases checker.answer (checker.inferWithin raw superType fuel other) with
      | ok found => cases found <;> rfl
      | error e => rfl
  | applied other args owner =>
      obtain rfl := Option.some.inj hfits.1
      obtain rfl : owner = none := hfits.2.2.1
      obtain ⟨parentDecl, hparent⟩ := hfits.2.1.1
      simp only [answer_bind]
      cases checker.answer (checker.inferWithin raw superType fuel other) with
      | error e => rfl
      | ok found =>
          cases found with
          | none => rfl
          | some map =>
              simp only [ok_bind, carryArguments, map_eq_pure_bind, pure_bind, answer_bind,
                answer_edgesOf, checker.edgesFromStore_of_class hdecl,
                checker.edgesFromStore_of_class hparent, answer_pure,
                Store.paramsOf_eq hdecl, Store.paramsOf_eq hparent]
              rfl
  | var v => exact absurd hfits.1 (by simp [Ty.rawClass?])
  | wildcard upper lower => exact absurd hfits.1 (by simp [Ty.rawClass?])
  | array component => exact absurd hfits.1 (by simp [Ty.rawClass?])

/-- **The inference comes to an answer where a way leads up**, given enough fuel to go there and to
look at what is wanted. -/
theorem exists_answer_inferWithin (checker : Checker) (hwalk : checker.store.Walkable)
    {id target : ClassId} {passed wanted : List Ty} (hid : checker.store.Knows id)
    (hconverts : checker.answer (checker.classConverts id target) = .ok true)
    (hpassed : checker.store.PassedUp target id passed)
    (hlength : wanted.length = (checker.store.paramsOf target).length)
    (hwanted : Ty.varsAll wanted = []) (enclosing : Option ClassId) {fuel : Nat}
    (hfuel : checker.store.height id + Ty.deepest wanted + 3 ≤ fuel) :
    ∃ map, checker.answer (checker.inferWithin target
        (.applied target wanted (enclosing.map .cls)) fuel id) = .ok (some map) ∧
      Inferred checker.store .empty wanted id passed map := by
  induction hpassed generalizing fuel with
  | arrive =>
      obtain ⟨fuel, rfl⟩ : ∃ n, fuel = n + 2 := ⟨fuel - 2, by omega⟩
      obtain ⟨decl, hdecl⟩ := hid
      have hparams : decl.params = checker.store.paramsOf target := (Store.paramsOf_eq hdecl).symm
      have hnesting := Ty.nestingAll_le_deepest wanted
      have hself := checker.answer_walkWithin_own hdecl (hparams ▸ hlength)
        (fun ty (h : none = some ty) => nomatch h) fuel .empty
      rw [hparams, checker.bindArguments_ground hlength.symm hwanted (by omega)] at hself
      refine ⟨_, ?_, .top hwalk .empty wanted target⟩
      simp only [inferWithin, answer_bind, hconverts, ok_bind, if_true, walkWithin_owner]
      exact hself
  | @step id parent decl edge passed hne hdecl hedge hraw hnext hrest ih =>
      obtain ⟨fuel, rfl⟩ : ∃ n, fuel = n + 1 := ⟨fuel - 1, by omega⟩
      have hfits := hwalk.fits hdecl hedge hraw
      have htarget := (hrest.reference hwalk hfits.2.1).2
      obtain ⟨below, hbelow, hiff⟩ :=
        answer_classConverts hwalk.nominal hfits.2.1.1 hfits.2.1.2 htarget
      rw [hiff.mpr (.of_path hrest.path)] at hbelow
      have hheight := hwalk.height_lt (.of_mem edge hdecl hedge hraw)
      obtain ⟨map, hmap, hinferred⟩ :=
        @ih hfits.2.1.1 hbelow fuel (by omega)
      refine ⟨_, ?_, hinferred.step hwalk hrest hdecl hedge hraw⟩
      rw [answer_inferWithin_succ hdecl hne hconverts hnext hfits, hmap]
      rfl

/-! ## Up and down again -/

/-- If what is wanted is what is passed up with types put in, a parameter that is passed up stands
for what was put in for it, wherever it was found. -/
lemma Inferred.get?_eq {store : Store} {id : ClassId} {passed : List Ty} {map : Bindings}
    {σ : TypeVarId → Option Ty}
    (h : Inferred store .empty (passed.map (Ty.subst σ)) id passed map) {v : TypeVarId}
    (hv : v ∈ store.paramsOf id) (hpassed : Ty.var v ∈ passed) :
    map.get? v = some (Ty.subst σ (.var v)) := by
  have hzip (ty : Ty) : (Ty.var v, ty) ∈ passed.zip (passed.map (Ty.subst σ)) ↔
      ty = Ty.subst σ (.var v) := by
    rw [← List.map_prod_left_eq_zip, List.mem_map]
    constructor
    · rintro ⟨given, -, heq⟩
      obtain ⟨rfl, rfl⟩ := Prod.mk.inj heq
      rfl
    · rintro rfl
      exact ⟨.var v, hpassed, rfl⟩
  obtain ⟨ty, hty⟩ := h.exists_get? v _ ((hzip _).mpr rfl)
  rcases h.wanted_of_get? v hv ty hty with hmem | ⟨w, hw⟩
  · rw [hty, (hzip ty).mp hmem]
  · rw [Bindings.get?_empty] at hw
    exact absurd hw (by simp)

/-- **The inference gives back the arguments of the walk.**  Take any class applied to arguments
without variables, and look at it as an instance of a class that its walk leads to: what the walk
makes of that class, applied to its own parameters.  If every class on the way passes each of its
parameters as an argument of its own, then from this instance exactly the arguments are inferred. -/
theorem inferArguments_of_seenFrom (checker : Checker) (hwalk : checker.store.Walkable)
    {id target : ClassId} {args : List Ty} (hid : checker.store.Knows id)
    (hconverts : checker.answer (checker.classConverts id target) = .ok true)
    (hlength : args.length = (checker.store.paramsOf id).length) (hargs : Ty.varsAll args = [])
    (hpasses : checker.store.PassesAllUp target id)
    (hdepth : checker.store.viewDepth args ≤ checker.limits.maxDepth)
    (nestedIn enclosing : Option ClassId) :
    ∃ seen map, checker.answer (checker.seenFrom (.applied id args (nestedIn.map .cls)) target
        (.applied target ((checker.store.paramsOf target).map .var) (enclosing.map .cls))) =
          .ok seen ∧
      checker.answer (checker.inferArguments id seen) = .ok (some map) ∧
      ∀ entry ∈ (checker.store.paramsOf id).zip args, map.get? entry.1 = some entry.2 := by
  obtain ⟨passed, hpassed, hvars⟩ := hpasses.exists_passed hwalk
  obtain ⟨bound, hview, hget⟩ :=
    checker.exists_answer_viewAs hwalk hid hconverts hlength hargs hpassed hdepth
  have hsees := hpassed.sees hwalk hlength
  have hseenLength := hsees.arity hwalk hlength
  have hseenGround := hsees.ground hwalk hlength hargs
  have hdeepest := hsees.deepest_le hwalk
  have hheight := hwalk.height_lt_size hid
  rw [Store.viewDepth] at hdepth
  have hmul : checker.store.height id * Ty.deepest checker.store.edgeArgs ≤
      checker.store.size * Ty.deepest checker.store.edgeArgs :=
    Nat.mul_le_mul_right _ hheight.le
  obtain ⟨map, hmap, hinferred⟩ := checker.exists_answer_inferWithin hwalk hid hconverts hpassed
    hseenLength hseenGround enclosing (by rw [fuel]; omega : _ ≤ checker.fuel)
  refine ⟨_, map, checker.answer_seenFrom_of_viewAs hwalk ?_ hget hseenLength hseenGround
    (by omega) enclosing, hmap, ?_⟩
  · simpa only [viewAs, walkWithin_owner] using hview
  rintro ⟨v, arg⟩ hentry
  have hv := (List.of_mem_zip hentry).1
  rw [hinferred.get?_eq hv (hvars v hv), Ty.subst,
    (Store.assigning_eq_some_iff (hwalk.params_nodup id)).mpr hentry, Option.getD_some]

/-- An `ArrayList<String>` is a `Collection<String>`, and from this `String` is inferred for the
parameter of `ArrayList`. -/
theorem arrayList_inferred :
    let checker : Checker := { store := .collections }
    let string := Ty.cls checker.store.wellKnown.string
    ∃ seen map, checker.answer (checker.seenFrom (.app ⟨29⟩ [string]) ⟨24⟩
        (.app ⟨24⟩ ((checker.store.paramsOf ⟨24⟩).map .var))) = .ok seen ∧
      checker.answer (checker.inferArguments ⟨29⟩ seen) = .ok (some map) ∧
      map.get? ⟨7⟩ = some string := by
  intro checker string
  have hcollection : checker.store.PassesAllUp ⟨24⟩ ⟨25⟩ :=
    .step (by decide) rfl (.head _) rfl rfl (by rintro v (_ | ⟨_, ⟨⟩⟩); exact .head _) .arrive
  have hlist : checker.store.PassesAllUp ⟨24⟩ ⟨29⟩ :=
    .step (by decide) rfl (.tail _ (.head _)) rfl rfl (by rintro v (_ | ⟨_, ⟨⟩⟩); exact .head _)
      hcollection
  obtain ⟨seen, map, hseen, hmap, hbound⟩ :=
    @inferArguments_of_seenFrom checker Store.collections_regular.toWalkable ⟨29⟩ ⟨24⟩ [string]
      ⟨_, rfl⟩ rfl rfl rfl hlist (by decide +kernel) none none
  exact ⟨seen, map, hseen, hmap, hbound (⟨7⟩, string) (.head _)⟩

end Checker

end JavaGenerics
