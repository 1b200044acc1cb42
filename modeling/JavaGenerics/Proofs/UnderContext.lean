import JavaGenerics.Proofs.Assignability
import JavaGenerics.Proofs.GroundComparison

/-!
# Checking under a context

A target may mention variables that a context binds.  One can put their bindings in first and then
compare, or compare under the context and let each rule look up what it needs.  The second way is
the one that is taken where bounds are checked, and it should be no more than a shortcut.

* `Store.GroundContext` — bindings to tidy reference types without variables.
* `Checker.agree_under_context` — **comparing under such a context agrees with comparing with the
  target in which the context has been put in**, by induction on the fuel along the components of
  arrays.  Everywhere else the variables are gone after one step, and `Checker.agree_ground`
  applies.
* `Checker.assignable_under_context` — the same for the question as it is asked.
* `Checker.rawBox_under_context`, `Checker.rawObject_under_context` — why the store has to be
  orderly: a generic class that the rules of the language use without arguments brings along
  variables that nobody wrote, and a context binds those too.
-/

namespace JavaGenerics

namespace Ty

mutual

/-- What equals a type without variables equals it still when variables are replaced. -/
theorem same_subst {σ : TypeVarId → Option Ty} : ∀ (s t : Ty), same s t = true → s.Ground →
    same s (subst σ t) = true
  | _, .cls _, h, _ => h
  | s, .applied raw args owner, h, hground => by
    cases s with
    | applied raw' args' owner' =>
        simp only [same, Bool.and_eq_true] at h
        simp only [Ground, vars, List.append_eq_nil_iff] at hground
        simp only [subst, same, Bool.and_eq_true]
        exact ⟨h.1, sameAll_substAll args' args h.2 hground.1⟩
    | _ => simp [same] at h
  | s, .var v, h, hground => by
    cases s with
    | var w => simp [Ground, vars] at hground
    | _ => simp [same] at h
  | s, .wildcard upper lower, h, hground => by
    cases s with
    | wildcard upper' lower' =>
        simp only [same, Bool.and_eq_true] at h
        simp only [Ground, vars, List.append_eq_nil_iff] at hground
        simp only [subst, same, Bool.and_eq_true]
        exact ⟨sameAll_substAll upper' upper h.1 hground.1,
          sameAll_substAll lower' lower h.2 hground.2⟩
    | _ => simp [same] at h
  | s, .array component, h, hground => by
    cases s with
    | array component' => exact same_subst component' component h hground
    | _ => simp [same] at h

theorem sameAll_substAll {σ : TypeVarId → Option Ty} : ∀ (ss ts : List Ty),
    sameAll ss ts = true → varsAll ss = [] → sameAll ss (substAll σ ts) = true
  | ss, [], h, _ => h
  | [], _ :: _, h, _ => by simp [sameAll] at h
  | s :: ss, t :: ts, h, hground => by
    simp only [sameAll, Bool.and_eq_true] at h
    simp only [varsAll, List.append_eq_nil_iff] at hground
    simp only [substAll, sameAll, Bool.and_eq_true]
    exact ⟨same_subst s t h.1 hground.1, sameAll_substAll ss ts h.2 hground.2⟩

end

/-- Where the types of two lists are equal, so are those found at the same place. -/
lemma lookup_of_sameAll {v : TypeVarId} {b : Ty} : ∀ {params : List TypeVarId} {as bs : List Ty},
    sameAll as bs = true → (params.zip bs).lookup v = some b →
    ∃ a, (params.zip as).lookup v = some a ∧ (a == b) = true
  | [], _, _, _, h => by simp at h
  | _ :: _, [], [], _, h => by simp at h
  | param :: params, a :: as, c :: bs, hsame, h => by
    simp only [sameAll, Bool.and_eq_true] at hsame
    rw [List.zip_cons_cons, List.lookup_cons] at h ⊢
    by_cases hv : v == param
    · simp only [hv, Option.some.injEq] at h ⊢
      exact ⟨a, rfl, h ▸ hsame.1⟩
    · simp only [hv] at h ⊢
      exact lookup_of_sameAll hsame.2 h
  | _ :: _, [], _ :: _, hsame, _ => by simp [sameAll] at hsame
  | _ :: _, _ :: _, [], hsame, _ => by simp [sameAll] at hsame

end Ty

namespace Store

/-- Bindings to tidy types without variables, none of them a primitive. -/
def GroundContext (store : Store) (context : Bindings) : Prop :=
  ∀ v ty, context.get? v = some ty → store.isTidy false ty = true ∧ ty.Ground ∧
    ∀ id, ty = .cls id → store.wellKnown.isPrimitive id = false

variable {store : Store} {context : Bindings}

lemma groundContext_bind_empty {v : TypeVarId} {ty : Ty} (htidy : store.isTidy false ty = true)
    (hground : ty.Ground) (hprim : ∀ id, ty = .cls id → store.wellKnown.isPrimitive id = false) :
    store.GroundContext (Bindings.empty.bind v ty) := by
  intro w t ht
  rw [Bindings.get?_bind] at ht
  split at ht
  · obtain rfl := Option.some.inj ht
    exact ⟨htidy, hground, hprim⟩
  · exact absurd ht (by simp)

lemma isWildcard_of_isTidy {ty : Ty} (h : store.isTidy false ty = true) :
    ty.isWildcard = false := by
  cases ty with
  | wildcard => simp [isTidy] at h
  | _ => rfl

lemma GroundContext.resolves (h : store.GroundContext context) {vars : List TypeVarId}
    (hbound : ∀ v ∈ vars, ∃ ty, context.get? v = some ty) : Checker.Resolves context vars := by
  intro v hv
  obtain ⟨ty, hty⟩ := hbound v hv
  exact ⟨ty, hty, (h v ty hty).2.1.var?_eq_none⟩

/-- Putting a ground context in for its variables does not make a wildcard of a tidy type. -/
lemma GroundContext.isWildcard_subst (h : store.GroundContext context) {ty : Ty}
    (htidy : store.isTidy false ty = true) (hbound : ∀ v ∈ ty.vars, ∃ t, context.get? v = some t) :
    (ty.subst context.get?).isWildcard = false := by
  cases ty with
  | var v =>
      obtain ⟨t, ht⟩ := hbound v (by simp [Ty.vars])
      simpa [Ty.subst, ht] using isWildcard_of_isTidy (h v t ht).1
  | wildcard => simp [isTidy] at htidy
  | _ => rfl

end Store

namespace Checker

variable {checker : Checker} {context : Bindings}

/-! ## Primitives -/

/-- Putting a ground context in for its variables makes no primitive of a type. -/
lemma isPrimitiveTy_subst (checker : Checker) (h : checker.store.GroundContext context) {ty : Ty}
    (hbound : ∀ v ∈ ty.vars, ∃ t, context.get? v = some t) :
    checker.isPrimitiveTy (ty.subst context.get?) = checker.isPrimitiveTy ty := by
  cases ty with
  | var v =>
      obtain ⟨t, ht⟩ := hbound v (by simp [Ty.vars])
      have hprim := (h v t ht).2.2
      simp only [Ty.subst, ht, Option.getD_some]
      cases t with
      | cls id => exact hprim id rfl
      | _ => rfl
  | _ => rfl

/-- Where a primitive is compared, the context does not matter. -/
lemma beq_subst_of_isPrimitiveTy (checker : Checker) (h : checker.store.GroundContext context)
    {given ty : Ty}
    (hbound : ∀ v ∈ ty.vars, ∃ t, context.get? v = some t)
    (hprim : (checker.isPrimitiveTy given || checker.isPrimitiveTy ty) = true) :
    (given == ty.subst context.get?) = (given == ty) := by
  cases ty with
  | cls id => rfl
  | var v =>
      obtain ⟨t, ht⟩ := hbound v (by simp [Ty.vars])
      have hreference := (h v t ht).2.2
      cases given with
      | cls id =>
          have hid : checker.store.wellKnown.isPrimitive id = true := by
            simpa [isPrimitiveTy, isPrimitive] using hprim
          have hne : ¬ (Ty.cls id == t) = true := by
            intro hsame
            have hnot := hreference id (Ty.cls_beq_iff.mp hsame)
            rw [hid] at hnot
            exact absurd hnot (by simp)
          simp only [Ty.subst, ht, Option.getD_some, Bool.eq_false_iff.mpr hne]
          rfl
      | _ => simp [isPrimitiveTy] at hprim
  | _ =>
      cases given with
      | cls id => rfl
      | _ => simp [isPrimitiveTy] at hprim

/-! ## Arrays -/

/-- Comparing components under a context agrees with comparing them after it has been put in, also
where those are the same already. -/
lemma agree_component (h : checker.store.GroundContext context) {n n' : Nat} {given ty : Ty}
    (htidy : checker.store.isTidy false ty = true)
    (hbound : ∀ v ∈ ty.vars, ∃ t, context.get? v = some t)
    (hassign : given.isWildcard = false → ∀ n', checker.Agree
      (checker.answer (checker.assignWithin n (some given) ty (some context)))
      (checker.answer (checker.assignWithin n' (some given) (ty.subst context.get?) none))) :
    checker.Agree
      (checker.answer (checker.assignComponent (checker.assignWithin n) given ty (some context)))
      (checker.answer (if given == ty.subst context.get? then pure true
        else checker.assignComponent (checker.assignWithin n') given (ty.subst context.get?)
          none)) := by
  have hty := Store.isWildcard_of_isTidy htidy
  have hsubst := h.isWildcard_subst htidy hbound
  have hprim := isPrimitiveTy_subst checker h hbound
  by_cases hgiven : given.isWildcard = true
  · have hne : ¬ (given == ty.subst context.get?) = true := by
      cases given with
      | wildcard upper lower =>
          intro hsame
          cases hshape : ty.subst context.get? with
          | wildcard => simp [hshape, Ty.isWildcard] at hsubst
          | _ =>
              rw [hshape] at hsame
              exact absurd hsame (by simp [BEq.beq, Ty.same])
      | _ => simp [Ty.isWildcard] at hgiven
    simp only [assignComponent, if_neg hne, hgiven, if_true]
    exact .refl _
  have hgiven' : given.isWildcard = false := by simpa using hgiven
  by_cases hprimitive : (checker.isPrimitiveTy given || checker.isPrimitiveTy ty) = true
  · have hsame := beq_subst_of_isPrimitiveTy checker h hbound hprimitive
    simp only [assignComponent, hgiven', hty, hsubst, hprim, hprimitive, hsame, Bool.false_eq_true,
      if_false, if_true]
    cases given == ty <;> exact .refl _
  · have hboth := hassign hgiven'
    simp only [assignComponent, hgiven', hty, hsubst, hprim, hprimitive, Bool.false_eq_true,
      if_false]
    by_cases hsame : given == ty.subst context.get?
    · have hone : checker.answer (checker.assignWithin 1 (some given) (ty.subst context.get?)
          none) = .ok true := by
        simp [assignWithin, assignStep, hsame]
      have hagree := hboth 1
      rw [hone] at hagree
      rwa [if_pos hsame]
    · rw [if_neg hsame]
      exact hboth n'

/-! ## Applied classes -/

/-- Comparing arguments finds what the context makes of the target assignable to it. -/
lemma agree_true_of_same (horder : checker.store.Orderly) (contain : ContainDown) (n : Nat)
    {source : Ty} {raw : ClassId} {args final : List Ty} {k : Option Bindings}
    (hsource : checker.store.Finished checker.store.groundTypes source)
    (htarget : checker.AppliesTo raw k args final)
    (hsame : (source == .applied raw final none) = true) :
    checker.Agree
      (checker.answer (checker.assignToApplied (checker.walkWithin n) contain (some source)
        (.applied raw args none) raw k)) (.ok true) := by
  have hsame' : Ty.same source (.applied raw final none) = true := hsame
  cases source with
  | applied raw' args' owner =>
      simp only [Ty.same, Bool.and_eq_true, beq_iff_eq] at hsame'
      obtain ⟨rfl, hargs⟩ := hsame'
      obtain ⟨hraw, hlength, rfl, hfinished⟩ := hsource.of_applied
      have hground : Ty.varsAll args' = [] :=
        Ty.varsAll_eq_nil.mpr fun arg harg => (hfinished arg harg).ground
      obtain ⟨decl, hdecl⟩ := htarget.known
      have hparams : decl.edges.params = checker.store.paramsOf raw' :=
        (Store.paramsOf_eq hdecl).symm
      have hresolves : Resolves .empty (Ty.varsAll args') := by simp [Resolves, hground]
      simp only [assignToApplied, answer_bind]
      rcases checker.answer_walkWithin_applied hraw (horder.params_nodup raw') hlength hresolves n
        with hdeep | ⟨m, hm, hlookup⟩
      · rw [hdeep]
        exact .left _
      rcases htarget.answer_walk horder n with hdeep | ⟨m', hm', hbound⟩
      · rw [hm, ok_bind]
        simp only [answer_bind, hdeep, error_bind]
        exact .left _
      simp only [hm, hm', ok_bind, answer_bind, answer_edgesOf,
        checker.edgesFromStore_of_class hdecl, hparams]
      rw [answer_argumentsFit_same]
      · exact .refl _
      intro v hv
      obtain ⟨wanted, hassigned, hget, hwanted⟩ := hbound v hv
      obtain ⟨given, hgiven, heq⟩ := Ty.lookup_of_sameAll hargs hassigned
      have hself : Ty.substAll Bindings.empty.get? args' = args' :=
        Ty.substAll_eq_self _ (by simp [hground])
      rw [hself] at hlookup
      have hmem := (Store.mem_of_assigning
        (show checker.store.assigning raw' args' v = some given from hgiven)).2
      refine ⟨given, wanted, ?_, (hfinished given hmem).ground.var?_eq_none, hget,
        hwanted.ground.var?_eq_none, heq⟩
      rw [hlookup v, hgiven, Option.some_or]
  | _ => simp [Ty.same] at hsame'

/-! ## The whole program -/

/-- **Comparing under a ground context agrees with comparing after it has been put in**, whatever
the amounts of fuel.  The induction follows the components of arrays. -/
theorem agree_under_context (horder : checker.store.Orderly)
    (h : checker.store.GroundContext context) : ∀ (n n' : Nat) {source target : Ty},
    checker.store.Finished checker.store.groundTypes source → source.isWildcard = false →
    checker.store.isTidy false target = true →
    (∀ v ∈ target.vars, ∃ ty, context.get? v = some ty) →
    checker.Agree
      (checker.answer (checker.assignWithin n (some source) target (some context)))
      (checker.answer (checker.assignWithin n' (some source) (target.subst context.get?) none))
  | 0, _, _, _, _, _, _, _ => .left _
  | _ + 1, 0, _, _, _, _, _, _ => .right _
  | n + 1, n' + 1, source, target, hsource, hwildcard, htidy, hbound => by
    have hfinished : ∀ ty, some source = some ty →
        checker.store.Finished checker.store.groundTypes ty := by
      rintro _ ⟨⟩
      exact hsource
    have hground (n n' : Nat) (k : Option Bindings) := (agree_ground checker horder n n' k none).1
    by_cases hsame : (source == target) = true
    · -- Then the target has no variables either, or at least none that the comparison sees.
      have hsame' : (source == target.subst context.get?) = true :=
        Ty.same_subst source target hsame hsource.ground
      have hleft : checker.answer (checker.assignWithin (n + 1) (some source) target
          (some context)) = .ok true := by
        simp [assignWithin, assignStep, hsame]
      have hright : checker.answer (checker.assignWithin (n' + 1) (some source)
          (target.subst context.get?) none) = .ok true := by
        simp [assignWithin, assignStep, hsame']
      rw [hleft, hright]
      exact .refl _
    have hne : ¬ (some source == some target) = true := hsame
    cases target with
    | cls id => exact hground _ _ _ (some source) (.cls id) hfinished (Or.inr ⟨id, rfl⟩)
    | wildcard upper lower => simp [Store.isTidy] at htidy
    | var v =>
        obtain ⟨ty, hty⟩ := hbound v (by simp [Ty.vars])
        have htyFinished := horder.finished (h v ty hty).1 (h v ty hty).2.1
        have hend : checker.endOfChain v context = .ok (some ty) := by
          simp [endOfChain, checker.follow_of_get? hty (h v ty hty).2.1.var?_eq_none]
        have hleft : checker.answer (checker.assignWithin (n + 1) (some source) (.var v)
            (some context)) =
            checker.answer (checker.assignWithin n (some source) ty (some context)) := by
          have hvar := hsource.ground.var?_eq_none
          simp only [assignWithin, assignStep, if_neg hne, assignToVar]
          cases source with
          | var w => simp [Ty.var?] at hvar
          | _ => simp [hend]
        rw [hleft, Ty.subst, hty, Option.getD_some]
        exact hground n (n' + 1) (some context) (some source) ty hfinished (Or.inl htyFinished)
    | applied raw args owner =>
        simp only [Store.isTidy, Bool.and_eq_true, Option.isSome_iff_exists, beq_iff_eq,
          Option.isNone_iff_eq_none] at htidy
        obtain ⟨⟨⟨hraw, hlength⟩, rfl⟩, hargs⟩ := htidy
        simp only [Ty.vars, Ty.varsOwner, List.append_nil] at hbound
        have hfinal : ∀ arg ∈ Ty.substAll context.get? args,
            checker.store.Finished checker.store.groundTypes arg := by
          intro arg harg
          rw [Ty.substAll_eq_map] at harg
          obtain ⟨arg', hmem, rfl⟩ := List.mem_map.mp harg
          have hwritten : checker.store.Written checker.store.groundTypes context.Binds arg' :=
            horder.writtenAll hargs hbound arg' hmem
          exact hwritten.finished_subst fun v hv => hv.imp fun t ht =>
            ⟨ht, horder.finished (h v t ht).1 (h v t ht).2.1⟩
        have hfinalGround : Ty.varsAll (Ty.substAll context.get? args) = [] :=
          Ty.varsAll_eq_nil.mpr fun arg harg => (hfinal arg harg).ground
        have happlies : checker.AppliesTo raw (some context) args
            (Ty.substAll context.get? args) :=
          { resolves := h.resolves hbound
            final_eq := rfl
            known := hraw
            length := hlength
            finished := hfinal }
        have happlies' : checker.AppliesTo raw none (Ty.substAll context.get? args)
            (Ty.substAll context.get? args) :=
          { resolves := by simp [Resolves, hfinalGround]
            final_eq := Ty.substAll_eq_self _ (by simp [hfinalGround])
            known := hraw
            length := by rw [Ty.substAll_eq_map, List.length_map, hlength]
            finished := hfinal }
        have hsubst : (Ty.applied raw args none).subst context.get? =
            .applied raw (Ty.substAll context.get? args) none := rfl
        rw [hsubst]
        simp only [assignWithin, assignStep, if_neg hne, answer_ite]
        split
        · rename_i hsame'
          exact agree_true_of_same horder _ n hsource happlies hsame'
        · exact agree_assignToApplied horder (agree_ground checker horder n n' _ _).2 n n' hfinished
            happlies happlies'
    | array component =>
        simp only [Ty.subst, assignWithin, assignStep, if_neg hne]
        cases source with
        | array given =>
            cases hsource with
            | array hgiven =>
                exact agree_component h htidy hbound fun hplain n' =>
                  agree_under_context horder h n n' hgiven hplain htidy hbound
        | var w => exact absurd hsource not_finished_var
        | wildcard upper lower => simp [Ty.isWildcard] at hwildcard
        | _ => exact .refl _

/-! ## The question -/

/-- **Asking under a context and asking about the target in which the context has been put in give
the same result** in an orderly store, for a tidy source without variables and a tidy target whose
variables the context all binds, unless one of the two meets the limit on depth. -/
theorem assignable_under_context {store : Store} (horder : store.Orderly) (limits : Limits)
    {source target : Ty} {context : Bindings}
    (hsource : store.isTidy false source = true) (hground : source.Ground)
    (hcontext : store.GroundContext context) (htarget : store.isTidy false target = true)
    (hbound : ∀ v ∈ target.vars, ∃ ty, context.get? v = some ty) :
    let checker : Checker := { store := store, limits := limits }
    let under := checker.answer (checker.assignable (some source) target (some context))
    let after := checker.substitute target context >>= fun target =>
      checker.answer (checker.assignable (some source) target none)
    under ≠ .error checker.tooDeep → after ≠ .error checker.tooDeep → under = after := by
  intro checker under after hunder hafter
  have hsubst : checker.substitute target context =
      if target.nesting < checker.fuel then .ok (target.subst context.get?)
      else .error checker.tooDeep :=
    checker.substWithin_eq context checker.fuel target (hcontext.resolves hbound)
  by_cases hnesting : target.nesting < checker.fuel
  · have hafter_eq : after =
        checker.answer (checker.assignable (some source) (target.subst context.get?) none) := by
      simp only [after, hsubst, if_pos hnesting, ok_bind]
    have hagree : checker.Agree under after := by
      rw [hafter_eq]
      exact agree_under_context horder hcontext checker.fuel checker.fuel
        (horder.finished hsource hground) (Store.isWildcard_of_isTidy hsource) htarget hbound
    exact (hagree.resolve_left hunder).resolve_left hafter
  · have hdeep : after = .error checker.tooDeep := by
      simp only [after, hsubst, if_neg hnesting, error_bind]
    exact absurd hdeep hafter

/-- An `ArrayList` of strings against a `Collection` of some parameter, which stands for the
characters. -/
theorem arrayList_under_context :
    let checker : Checker := { store := .collections }
    let context := Bindings.empty.bind ⟨1⟩ (.cls ⟨3⟩)
    let source := Ty.app ⟨29⟩ [.cls ⟨5⟩]
    let target := Ty.app ⟨24⟩ [.extending (.var ⟨1⟩)]
    checker.answer (checker.assignable (some source) target (some context)) = .ok true ∧
      checker.answer (checker.assignable (some source) target none) = .ok false ∧
      checker.answer (checker.assignable (some source) target (some context)) =
        checker.substitute target context >>= fun target =>
          checker.answer (checker.assignable (some source) target none) := by
  intro checker context source target
  have hcontext : Store.collections.GroundContext context := by
    refine Store.groundContext_bind_empty rfl rfl ?_
    rintro _ ⟨⟩
    rfl
  have hbound : ∀ v ∈ target.vars, ∃ ty, context.get? v = some ty := by
    intro v hv
    obtain rfl : v = ⟨1⟩ := List.mem_singleton.mp hv
    exact ⟨.cls ⟨3⟩, rfl⟩
  have hsource : Store.collections.isTidy false source = true := rfl
  have htarget : Store.collections.isTidy false target = true := rfl
  have hunder : checker.answer (checker.assignable (some source) target (some context)) =
      .ok true := by decide +kernel
  have hafter : (checker.substitute target context >>= fun target =>
      checker.answer (checker.assignable (some source) target none)) = .ok true := by
    decide +kernel
  refine ⟨hunder, by decide +kernel, assignable_under_context Store.collections_orderly {} hsource rfl hcontext
    htarget hbound ?_ ?_⟩
  · rw [hunder]
    simp
  · rw [hafter]
    simp

end Checker

/-! ## Classes used without arguments -/

namespace Store

/-- Supertypes of a generic class that mention the class's own parameter. -/
def comparableToComparable : List Ty :=
  [.app Stock.wellKnown.comparable [.app Stock.wellKnown.comparable [.var ⟨1⟩]]]

/-- The core store with a generic box of `int`. -/
def genericBoxes : Store :=
  .ofDeclarations Stock.wellKnown
    (Stock.coreClasses.set Stock.wellKnown.integer.index
      { name := "java.lang.Integer", params := [⟨1⟩],
        superclass := some (.cls Stock.wellKnown.number), interfaces := comparableToComparable })
    (Stock.coreParams ++ [Stock.paramOf Stock.wellKnown.integer "T"])

/-- The core store with a generic `Object`, and with no other class having supertypes. -/
def genericObjects : Store :=
  .ofDeclarations Stock.wellKnown
    ((Stock.coreClasses.map fun decl => { decl with superclass := none, interfaces := [] }).set
      Stock.wellKnown.object.index
      { name := "java.lang.Object", params := [⟨1⟩], interfaces := comparableToComparable })
    (Stock.coreParams ++ [Stock.paramOf Stock.wellKnown.object "T"])

/-- The generic `Object` is the only class with a supertype. -/
lemma genericObjects_extends {id parent : ClassId} (h : genericObjects.Extends id parent) :
    id = Stock.wellKnown.object ∧ parent = Stock.wellKnown.comparable := by
  obtain ⟨decl, hdecl, edge, hedge, hraw⟩ := h
  have hall : ∀ pair ∈ genericObjects.classes.toList.zipIdx, ∀ edge ∈ pair.1.edges.supertypes,
      pair.2 = 0 ∧ edge.rawClass? = some Stock.wellKnown.comparable := by decide +kernel
  have hmem : (decl, id.index) ∈ genericObjects.classes.toList.zipIdx := by
    refine List.mem_zipIdx_iff_getElem?.mpr ?_
    simpa [class?] using hdecl
  obtain ⟨hindex, hparent⟩ := hall _ hmem edge hedge
  rw [hraw, Option.some.injEq] at hparent
  exact ⟨congrArg ClassId.mk hindex, hparent⟩

end Store

namespace Checker

/-- Boxing leads to the class without arguments.  From there a walk meets the parameter of the box,
which nobody wrote, and which a context binds nevertheless. -/
theorem rawBox_under_context :
    let checker : Checker := { store := .genericBoxes }
    let context := Bindings.empty.bind ⟨1⟩ (.cls Store.Stock.wellKnown.number)
    let source := Ty.cls (Store.Stock.wellKnown.primitives.get .int)
    let target := Ty.app ⟨4⟩ [.superOf (.app ⟨4⟩ [.cls Store.Stock.wellKnown.string])]
    Store.genericBoxes.Regular ∧ Store.genericBoxes.hasTidySupertypes = true ∧
      Store.genericBoxes.isTidy false source = true ∧ source.Ground ∧
      Store.genericBoxes.GroundContext context ∧
      Store.genericBoxes.isTidy false target = true ∧ target.Ground ∧
      checker.answer (checker.assignable (some source) target (some context)) = .ok false ∧
      checker.substitute target context = .ok target ∧
      checker.answer (checker.assignable (some source) target none) = .ok true := by
  intro checker context source target
  refine ⟨.of_isRegular (by decide +kernel), by decide +kernel, by decide +kernel, rfl, ?_,
    by decide +kernel, rfl, by decide +kernel, rfl, by decide +kernel⟩
  refine Store.groundContext_bind_empty rfl rfl ?_
  rintro _ ⟨⟩
  rfl

/-- The same happens to the implicit bound of a wildcard.  The only edge of the hierarchy leads from
`Object` to `Comparable`. -/
theorem rawObject_under_context :
    let checker : Checker := { store := .genericObjects }
    let context := Bindings.empty.bind ⟨1⟩ (.cls Store.Stock.wellKnown.number)
    let source := Ty.app ⟨4⟩ [.unbounded]
    let target :=
      Ty.app ⟨4⟩ [.extending (.app ⟨4⟩ [.superOf (.app ⟨4⟩ [.cls Store.Stock.wellKnown.string])])]
    Store.genericObjects.hasTidySupertypes = true ∧
      (∀ id parent, Store.genericObjects.Extends id parent →
        id = Store.Stock.wellKnown.object ∧ parent = Store.Stock.wellKnown.comparable) ∧
      Store.genericObjects.isTidy false source = true ∧ source.Ground ∧
      Store.genericObjects.GroundContext context ∧
      Store.genericObjects.isTidy false target = true ∧ target.Ground ∧
      checker.answer (checker.assignable (some source) target (some context)) = .ok false ∧
      checker.substitute target context = .ok target ∧
      checker.answer (checker.assignable (some source) target none) = .ok true := by
  intro checker context source target
  refine ⟨by decide +kernel, fun id parent => Store.genericObjects_extends, by decide +kernel, rfl,
    ?_, by decide +kernel, rfl, by decide +kernel, rfl, by decide +kernel⟩
  refine Store.groundContext_bind_empty rfl rfl ?_
  rintro _ ⟨⟩
  rfl

end Checker

end JavaGenerics
