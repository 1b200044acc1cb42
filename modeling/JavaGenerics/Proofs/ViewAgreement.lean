import JavaGenerics.Erasure
import JavaGenerics.Application
import JavaGenerics.Proofs.Views

/-!
# Views agree

That a type is an instance of a class above it with certain arguments can be read off in four ways:
apply the class to the bindings of a walk, ask how the class applied to its own parameters is seen,
ask what the type is assignable to, or erase the parameters one by one.

* `Store.applyFromBindings_eq`, `Checker.answer_assignable_instance`,
  `Checker.exists_answer_eraseWithin` — each of them comes to `Store.argsAt`, the arguments at the
  end of the way.
* `Checker.answer_views_agree` — **so all of them agree.**
-/

namespace JavaGenerics

open Relation

namespace Store

variable {store : Store}

/-- Every parameter that a class lists is one that it declares. -/
def ParamsDeclared (store : Store) : Prop :=
  ∀ id, ∀ v ∈ store.paramsOf id, ∃ param, store.param? v = some param ∧ param.declarer = .ofClass id

/-- Whether every class declares the parameters that it lists. -/
def hasDeclaredParams (store : Store) : Bool :=
  store.classes.toList.zipIdx.all fun (decl, i) => decl.params.all fun v =>
    (store.param? v).any fun param => param.declarer == .ofClass ⟨i⟩

lemma ParamsDeclared.of_hasDeclaredParams (h : store.hasDeclaredParams = true) :
    store.ParamsDeclared := by
  intro id v hv
  obtain ⟨decl, hdecl⟩ : store.Knows id := by
    by_contra hunknown
    have hnone : store.class? id = none := Option.eq_none_iff_forall_ne_some.mpr
      fun decl hdecl => hunknown ⟨decl, hdecl⟩
    simp [paramsOf, hnone] at hv
  have hmem : (decl, id.index) ∈ store.classes.toList.zipIdx :=
    List.mem_zipIdx_iff_getElem?.mpr (by simpa [class?] using hdecl)
  simp only [hasDeclaredParams, List.all_eq_true, Option.any_eq_true, beq_iff_eq] at h
  exact h _ hmem v (paramsOf_eq hdecl ▸ hv)

theorem collections_paramsDeclared : collections.ParamsDeclared :=
  .of_hasDeclaredParams (by decide +kernel)

/-! ## Applying the class -/

/-- Where all variables are bound, what they are bound to is collected. -/
lemma argumentsFrom_eq {map : Bindings} {f : TypeVarId → Ty} : ∀ {vars : List TypeVarId},
    (∀ v ∈ vars, map.get? v = some (f v)) → store.argumentsFrom map vars = .ok (vars.map f)
  | [], _ => rfl
  | v :: vars, h => by
    obtain ⟨hv, hrest⟩ := List.forall_mem_cons.mp h
    simp [argumentsFrom, hv, argumentsFrom_eq hrest, Except.map]

/-- **The bindings of a walk apply the target to the arguments found there.** -/
theorem applyFromBindings_eq (hwalk : store.Walkable) {target : ClassId} {decl : ClassDecl}
    {map : Bindings} {args : List Ty} (hdecl : store.class? target = some decl)
    (hlength : args.length = (store.paramsOf target).length)
    (hget : ∀ v ∈ store.paramsOf target, map.get? v = store.assigning target args v) :
    store.applyFromBindings target map =
      .ok (.applied target args (decl.enclosing.map .cls)) := by
  have hargs : store.argumentsFrom map decl.params = .ok args := by
    rw [← paramsOf_eq hdecl, argumentsFrom_eq
      (f := fun v => (store.assigning target args v).getD (.var v)) fun v hv => ?_]
    · exact congrArg Except.ok (map_lookup_zip (hwalk.params_nodup target) hlength)
    · obtain ⟨ty, hty⟩ := exists_assigning hlength hv
      rw [hget v hv, hty, Option.getD_some]
  have hlength' : decl.params.length = args.length := by rw [hlength, paramsOf_eq hdecl]
  simp [applyFromBindings, knownClass, hdecl, hargs, applyClass, ownerOf, hlength']

end Store

namespace Checker

variable {checker : Checker}

/-! ## Erasing a parameter -/

/-- A ground type has an erasure, whoever looks at it, that is found with enough fuel. -/
theorem exists_answer_eraseWithin (checker : Checker) : ∀ ty : Ty, ty.Ground →
    ∃ erased, ∀ (viewer : Option Ty) (fuel : Nat), ty.nesting < fuel →
      checker.answer (checker.eraseWithin viewer fuel ty) = .ok erased
  | .cls id, _ => ⟨some (.cls id), fun _ fuel hfuel => by
      cases fuel with
      | zero => exact absurd hfuel (Nat.not_lt_zero _)
      | succ fuel => rfl⟩
  | .applied raw _ _, _ => ⟨some (.cls raw), fun _ fuel hfuel => by
      cases fuel with
      | zero => exact absurd hfuel (Nat.not_lt_zero _)
      | succ fuel => rfl⟩
  | .wildcard _ _, _ => ⟨none, fun _ fuel hfuel => by
      cases fuel with
      | zero => exact absurd hfuel (Nat.not_lt_zero _)
      | succ fuel => rfl⟩
  | .var _, h => by simp [Ty.Ground, Ty.vars] at h
  | .array component, h => by
    obtain ⟨erased, herased⟩ := exists_answer_eraseWithin checker component h
    refine ⟨erased.map .array, fun viewer fuel hfuel => ?_⟩
    cases fuel with
    | zero => exact absurd hfuel (Nat.not_lt_zero _)
    | succ fuel =>
        rw [Ty.nesting, Nat.add_lt_add_iff_right] at hfuel
        rw [eraseWithin, answer_bind, herased viewer fuel hfuel]
        rfl

/-- Erasing a parameter of a class, as seen from a type, is erasing what a walk to that class binds
it to. -/
theorem answer_erase_var (checker : Checker) {subject : Ty} {target : ClassId} {map : Bindings}
    {v : TypeVarId} {param : TypeParam} {arg : Ty} {erased : Option Ty}
    (hparam : checker.store.param? v = some param) (hdeclarer : param.declarer = .ofClass target)
    (hview : checker.answer
      (checker.walkWithin checker.limits.maxDepth subject target .empty) = .ok (some map))
    (hget : map.get? v = some arg)
    (herased : checker.answer
      (checker.eraseWithin (some subject) checker.limits.maxDepth arg) = .ok erased) :
    checker.answer (checker.erase (.var v) (some subject)) = .ok erased := by
  have hknown : checker.store.knownParam v = .ok param := by simp [Store.knownParam, hparam]
  simp only [erase, fuel, eraseWithin, answer_bind, answer_lift, hknown, ok_bind, hdeclarer, hview,
    hget, herased]

/-! ## Assigning to the instance -/

/-- A class that owns an applied class brings no bindings along. -/
lemma walkWithin_owner (fuel : Nat) (raw : ClassId) (args : List Ty) (enclosing : Option ClassId)
    (target : ClassId) (map : Bindings) :
    checker.walkWithin fuel (.applied raw args (enclosing.map .cls)) target map =
      checker.walkWithin fuel (.app raw args) target map := by
  cases fuel with
  | zero => rfl
  | succ fuel => cases enclosing <;> rfl

/-- **A ground type is assignable to the target applied to the arguments that are found there**, as
a nested class or not. -/
theorem answer_assignable_instance (checker : Checker) (hwalk : checker.store.Walkable)
    {subject : Ty} {id target : ClassId} {levels : List (ClassId × List Ty)}
    (hfits : checker.store.FitsClass subject id) (hground : Ty.varsAll subject.args = [])
    (htarget : checker.store.Reference target)
    (happroach : checker.store.Approachable target ∨ checker.store.paramsOf target = [])
    (hpath : ReflTransGen checker.store.Extends id target)
    (hascent : checker.store.Ascent target id subject.args levels)
    (hdepth : checker.store.viewDepth subject.args ≤ checker.limits.maxDepth)
    (enclosing : Option ClassId) :
    checker.answer (checker.assignable (some subject)
      (.applied target (Store.argsAt target levels) (enclosing.map .cls)) none) = .ok true := by
  have hid := hfits.2.1.1
  have hbelow := Store.Below.of_path hpath
  have hfound := hwalk.argsAt_instance hascent htarget.2 hid happroach hpath hfits.2.2.2 hground
  have hlimit := hwalk.lt_viewDepth hid (Nat.le_add_right (Ty.deepest subject.args) _)
  have hlimit' := hwalk.lt_viewDepth hid hfound.deepest
  have hsource := checker.answer_walkWithin_of_ascent hwalk hfits hground htarget.2 hbelow hascent
    (hlimit.trans_le hdepth)
  have hinstance : checker.store.FitsClass (.app target (Store.argsAt target levels)) target :=
    ⟨rfl, htarget, rfl, hfound.length⟩
  have hself := checker.answer_walkWithin_of_ascent hwalk hinstance hfound.ground htarget.2
    (Or.inl rfl) (.arrive _) (hlimit'.trans_le hdepth)
  obtain ⟨decl, hdecl⟩ := htarget.1
  have hparams : decl.edges.params = checker.store.paramsOf target := (Store.paramsOf_eq hdecl).symm
  have hnoArray : subject.isArray = false := by
    cases subject with
    | array => exact absurd hfits.1 (by simp [Ty.rawClass?])
    | _ => rfl
  simp only [assignable, fuel, assignWithin, assignStep, answer_ite]
  split
  · rfl
  rw [assignToApplied_eq _ _ hnoArray]
  simp only [compareInstances, answer_bind, hsource, ok_bind, Option.getD_none, walkWithin_owner,
    hself, answer_edgesOf, checker.edgesFromStore_of_class hdecl, hparams]
  refine answer_argumentsFit_same checker _ _ _ _ _ fun v hv => ?_
  obtain ⟨ty, hty⟩ := Store.exists_assigning hfound.length hv
  have hnoVar : ty.var? = none :=
    (Ty.varsAll_eq_nil.mp hfound.ground ty (Store.mem_of_assigning hty).2).var?_eq_none
  refine ⟨ty, ty, ?_, hnoVar, ?_, hnoVar, beq_self_eq_true ty⟩
  · rw [hascent.get?_bindLevels_param hwalk htarget.2 hid hbelow hv, hty]
  · rw [(Store.Ascent.arrive _).get?_bindLevels_param hwalk htarget.2 ⟨decl, hdecl⟩ (Or.inl rfl) hv]
    simpa [Store.argsAt, Ty.app, Ty.args] using hty

/-! ## All of them -/

/-- **All ways of viewing a ground type as an instance of a class above it agree.**  A walk finds
bindings; applied to them, the class is the type that the class applied to its own parameters is
seen as; the subject is assignable to either; and each parameter of the class, erased from the
subject's point of view, is its argument erased from anyone's.  Where `Object` is an interface and
the class, it must not have parameters. -/
theorem answer_views_agree (checker : Checker) (hreg : checker.store.Regular)
    (hdeclared : checker.store.ParamsDeclared) {subject : Ty} {id target : ClassId}
    (hsubject : checker.store.FitsClass subject id) (hground : Ty.varsAll subject.args = [])
    (htarget : checker.store.Reference target)
    (hpath : ReflTransGen checker.store.Extends id target)
    (happroach : checker.store.Approachable target ∨ checker.store.paramsOf target = [])
    (hdepth : checker.store.viewDepth subject.args ≤ checker.limits.maxDepth) :
    ∃ map view seen,
      checker.answer (checker.viewAs subject target .empty) = .ok (some map) ∧
      checker.store.applyFromBindings target map = .ok view ∧
      checker.answer (checker.seenFrom subject target (checker.store.generic target)) = .ok seen ∧
      (view == seen) = true ∧
      (∀ ty ∈ [view, seen],
        checker.answer (checker.assignable (some subject) ty none) = .ok true) ∧
      ∀ v ∈ checker.store.paramsOf target, ∃ arg erased,
        checker.store.assigning target view.args v = some arg ∧
        checker.answer (checker.erase (.var v) (some subject)) = .ok erased ∧
        ∀ viewer, checker.answer (checker.erase arg viewer) = .ok erased := by
  have hwalk := hreg.toWalkable
  have hid := hsubject.2.1.1
  have hbelow := Store.Below.of_path hpath
  obtain ⟨levels, hlevels, -⟩ :=
    hwalk.exists_ascent htarget.2 _ subject.args (Nat.lt_succ_self _) hid hbelow
  have hfound := hwalk.argsAt_instance hlevels htarget.2 hid happroach hpath
    hsubject.2.2.2 hground
  have hlimit := hwalk.lt_viewDepth hid (Nat.le_add_right (Ty.deepest subject.args) _)
  have hlimit' := hwalk.lt_viewDepth hid hfound.deepest
  have hget : ∀ v ∈ checker.store.paramsOf target,
      (checker.store.bindLevels .empty levels).get? v =
        checker.store.assigning target (Store.argsAt target levels) v :=
    fun v hv => hlevels.get?_bindLevels_param hwalk htarget.2 hid hbelow hv
  obtain ⟨decl, hdecl⟩ := htarget.1
  have hassign := checker.answer_assignable_instance hwalk hsubject hground htarget happroach hpath
    hlevels hdepth
  refine ⟨_, _, _,
    checker.answer_viewAs_of_ascent hwalk hsubject hground htarget.2 hbelow hlevels
      (hlimit.le.trans hdepth),
    Store.applyFromBindings_eq hwalk hdecl hfound.length hget,
    checker.answer_seenFrom_generic hwalk hsubject hground htarget.2 happroach hpath hlevels hdepth,
    ?_, ?_, fun v hv => ?_⟩
  · have hsame : Ty.sameAll (Store.argsAt target levels) (Store.argsAt target levels) = true :=
      Ty.sameAll_refl _
    show Ty.same _ _ = true
    simp [Ty.app, Ty.same, hsame]
  · rintro _ (_ | ⟨_, _ | ⟨_, ⟨⟩⟩⟩)
    · exact hassign decl.enclosing
    · exact hassign none
  · obtain ⟨param, hparam, hdeclarer⟩ := hdeclared target v hv
    obtain ⟨arg, harg⟩ := Store.exists_assigning hfound.length hv
    have hmem := (Store.mem_of_assigning harg).2
    have hnesting := Ty.nesting_le_deepest hmem
    obtain ⟨erased, herased⟩ :=
      exists_answer_eraseWithin checker arg (Ty.varsAll_eq_nil.mp hfound.ground arg hmem)
    refine ⟨arg, erased, harg, ?_, fun viewer => herased viewer _ ?_⟩
    · exact checker.answer_erase_var hparam hdeclarer
        (checker.answer_walkWithin_of_ascent hwalk hsubject hground htarget.2 hbelow hlevels
          (hlimit.trans_le hdepth))
        ((hget v hv).trans harg) (herased _ _ (by omega))
    · rw [fuel]
      omega

/-- All views of an `ArrayList<String>` as a `Collection` agree. -/
theorem arrayList_views_agree :
    let checker : Checker := { store := .collections }
    ∃ map view seen,
      checker.answer (checker.viewAs (.app ⟨29⟩ [.cls ⟨5⟩]) ⟨24⟩ .empty) = .ok (some map) ∧
      checker.store.applyFromBindings ⟨24⟩ map = .ok view ∧
      checker.answer (checker.seenFrom (.app ⟨29⟩ [.cls ⟨5⟩]) ⟨24⟩ (checker.store.generic ⟨24⟩)) =
        .ok seen ∧
      (view == seen) = true ∧
      (∀ ty ∈ [view, seen],
        checker.answer (checker.assignable (some (.app ⟨29⟩ [.cls ⟨5⟩])) ty none) = .ok true) ∧
      ∀ v ∈ checker.store.paramsOf ⟨24⟩, ∃ arg erased,
        checker.store.assigning ⟨24⟩ view.args v = some arg ∧
        checker.answer (checker.erase (.var v) (some (.app ⟨29⟩ [.cls ⟨5⟩]))) = .ok erased ∧
        ∀ viewer, checker.answer (checker.erase arg viewer) = .ok erased := by
  intro checker
  have hlist : checker.store.Extends ⟨29⟩ ⟨25⟩ :=
    .of_mem (Store.Stock.passing 25 [7]) rfl (.tail _ (.head _)) rfl
  have hcollection : checker.store.Extends ⟨25⟩ ⟨24⟩ :=
    .of_mem (Store.Stock.passing 24 [3]) rfl (.head _) rfl
  exact answer_views_agree checker Store.collections_regular Store.collections_paramsDeclared
    ⟨rfl, ⟨⟨_, rfl⟩, by decide⟩, rfl, rfl⟩ rfl ⟨⟨_, rfl⟩, by decide⟩
    (.tail (.single hlist) hcollection) (Or.inl fun h => absurd h (by decide)) (by decide)

/-- A class that implements an interface `Object` of strings after another interface is not seen as
an `Object` of anything, so the parameter of `Object` stays unbound. -/
theorem interfaceTop_views :
    let store := Store.interfaceTop []
    let checker : Checker := { store := store }
    let subject := Ty.cls ⟨24⟩
    let target := store.wellKnown.object
    store.Regular ∧ store.ParamsDeclared ∧ store.FitsClass subject ⟨24⟩ ∧
      Ty.varsAll subject.args = [] ∧ store.Reference target ∧
      ReflTransGen store.Extends ⟨24⟩ target ∧
      store.viewDepth subject.args ≤ checker.limits.maxDepth ∧
      ∃ map,
        checker.answer (checker.viewAs subject target .empty) = .ok (some map) ∧
        store.applyFromBindings target map = .error (.unboundParameter "T") ∧
        checker.answer (checker.seenFrom subject target (store.generic target)) =
          .ok (store.generic target) := by
  intro store checker subject target
  have htop : store.Extends ⟨24⟩ ⟨23⟩ := .of_mem (.cls ⟨23⟩) rfl (.tail _ (.head _)) rfl
  have hobject : store.Extends ⟨23⟩ ⟨0⟩ := .of_mem (.app ⟨0⟩ [.cls ⟨5⟩]) rfl (.head _) rfl
  exact ⟨.of_isRegular (by decide +kernel), .of_hasDeclaredParams (by decide +kernel),
    ⟨rfl, ⟨⟨_, rfl⟩, by decide⟩, rfl, rfl⟩, rfl, ⟨⟨_, rfl⟩, by decide⟩,
    .tail (.single htop) hobject, by decide, _, rfl, rfl, rfl⟩

end Checker

end JavaGenerics
