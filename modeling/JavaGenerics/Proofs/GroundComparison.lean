import JavaGenerics.Proofs.ErrorCauses
import JavaGenerics.Proofs.TidyTypes
import JavaGenerics.Proofs.Walk

/-!
# Comparing types without variables

The context of a question about assignability binds variables of the target.  It is handed down
through the whole comparison, also where source and target change places, and is consulted at
several points.  For types without variables that must not make a difference.

* `Checker.Agree` — two results are the same, or one of them reports the limit on depth.
* `Checker.bindArguments_lookup`, `Checker.answer_walkWithin_applied` — what the parameters of an
  applied class are bound to by a walk to this class itself.
* `Checker.agree_argumentsFit`, `Checker.agree_assignToApplied` — comparing arguments depends on
  what is found for the parameters only, and not on the context.
* `Checker.agree_ground` — **types without variables are compared alike in every context**, and with
  every amount of fuel that suffices.
-/

namespace JavaGenerics

namespace Checker

variable {α β : Type} {checker : Checker}

/-! ## Agreement -/

/-- The results are the same, or one of them reports the limit on depth. -/
def Agree (checker : Checker) (r r' : Except DeclError α) : Prop :=
  r = .error checker.tooDeep ∨ r' = .error checker.tooDeep ∨ r = r'

namespace Agree

lemma refl (r : Except DeclError α) : checker.Agree r r :=
  Or.inr (Or.inr rfl)

lemma left (r : Except DeclError α) : checker.Agree (.error checker.tooDeep) r :=
  Or.inl rfl

lemma right (r : Except DeclError α) : checker.Agree r (.error checker.tooDeep) :=
  Or.inr (Or.inl rfl)

lemma symm {r r' : Except DeclError α} (h : checker.Agree r r') : checker.Agree r' r := by
  rcases h with h | h | h
  · exact Or.inr (Or.inl h)
  · exact Or.inl h
  · exact Or.inr (Or.inr h.symm)

/-- What goes on from the results needs to agree only for values that were found. -/
lemma bind {r r' : Except DeclError α} {f f' : α → Except DeclError β} (h : checker.Agree r r')
    (hnext : ∀ a, r = .ok a → r' = .ok a → checker.Agree (f a) (f' a)) :
    checker.Agree (r >>= f) (r' >>= f') := by
  rcases h with rfl | rfl | rfl
  · exact .left _
  · exact .right _
  · cases r with
    | ok a => exact hnext a rfl rfl
    | error e => exact .refl _

lemma of_short {r r' : Except DeclError α} (h : ShortOf (· = checker.tooDeep) r r') :
    checker.Agree r r' := by
  rcases h with h | ⟨e, h, rfl⟩
  · exact Or.inr (Or.inr h)
  · exact Or.inl h

end Agree

/-- Walks with different amounts of fuel agree. -/
lemma agree_walk (checker : Checker) (n n' : Nat) (subject : Ty) (target : ClassId)
    (map : Bindings) :
    checker.Agree (checker.answer (checker.walkWithin n subject target map))
      (checker.answer (checker.walkWithin n' subject target map)) := by
  have hmilder := milder_of_eq checker.store (Eq.refl checker.limits.maxVariableChain)
  rcases Nat.le_total n n' with hle | hle
  · exact .of_short (((hmilder.decisions hle).1 subject target map).run_short _)
  · exact (Agree.of_short (((hmilder.decisions hle).1 subject target map).run_short _)).symm

/-! ## What parameters are bound to -/

/-- Binding arguments binds each parameter to its own, or reports the limit.  A parameter that is
passed for itself keeps what it is bound to already. -/
lemma bindArguments_lookup (checker : Checker) (fuel : Nat) {before : Bindings} :
    ∀ (params : List TypeVarId) (args : List Ty) (map : Bindings), params.Nodup →
      params.length = args.length → Resolves before (Ty.varsAll args) →
      (∀ v ∈ params, map.get? v = before.get? v) →
      checker.bindArguments fuel before params args map = .error checker.tooDeep ∨
        ∃ bound, checker.bindArguments fuel before params args map = .ok bound ∧
          ∀ v, bound.get? v =
            ((params.zip (Ty.substAll before.get? args)).lookup v).or (map.get? v)
  | [], [], map, _, _, _, _ => Or.inr ⟨map, by simp [bindArguments], by simp⟩
  | param :: params, arg :: args, map, hnodup, hlength, hresolves, hsame => by
    obtain ⟨hparam, hnodup'⟩ := List.nodup_cons.mp hnodup
    have hlength' : params.length = args.length := by simpa using hlength
    simp only [Ty.varsAll, Resolves, List.mem_append] at hresolves
    have hrest : Resolves before (Ty.varsAll args) := fun v hv => hresolves v (Or.inr hv)
    rw [bindArguments]
    split
    · rename_i hvar
      cases arg with
      | var w =>
          rw [Ty.var?, Option.some.injEq] at hvar
          subst hvar
          obtain ⟨ty, hget, -⟩ := hresolves w (Or.inl (by simp [Ty.vars]))
          rcases bindArguments_lookup checker fuel params args map hnodup' hlength' hrest
            (fun v hv => hsame v (List.mem_cons_of_mem _ hv)) with h | ⟨bound, hbound, hlookup⟩
          · exact Or.inl h
          · refine Or.inr ⟨bound, hbound, fun v => ?_⟩
            rw [hlookup v]
            by_cases hv : v = w
            · subst hv
              have hnone := Bindings.lookup_zip_eq_none (Ty.substAll before.get? args) hparam
              simp [hnone, hsame v (by simp), hget, Ty.substAll, Ty.subst]
            · simp [Ty.substAll, List.lookup_cons, beq_eq_false_iff_ne.mpr hv]
      | _ => simp [Ty.var?] at hvar
    · rw [checker.substWithin_eq before fuel arg fun v hv => hresolves v (Or.inl hv)]
      by_cases hfuel : arg.nesting < fuel
      · rw [if_pos hfuel, ok_bind]
        have hsame' : ∀ v ∈ params,
            (map.bind param (arg.subst before.get?)).get? v = before.get? v := by
          intro v hv
          rw [Bindings.get?_bind, if_neg]
          · exact hsame v (List.mem_cons_of_mem _ hv)
          · rintro rfl
            exact hparam hv
        rcases bindArguments_lookup checker fuel params args _ hnodup' hlength' hrest hsame' with
          h | ⟨bound, hbound, hlookup⟩
        · exact Or.inl h
        · refine Or.inr ⟨bound, hbound, fun v => ?_⟩
          rw [hlookup v, Bindings.get?_bind]
          by_cases hv : v = param
          · subst hv
            have hnone := Bindings.lookup_zip_eq_none (Ty.substAll before.get? args) hparam
            simp [hnone, Ty.substAll]
          · simp [hv, Ty.substAll, List.lookup_cons, beq_eq_false_iff_ne.mpr hv]
      · rw [if_neg hfuel]
        exact Or.inl rfl

/-- A walk from an applied class to this class itself binds its parameters, or reports the limit. -/
lemma answer_walkWithin_applied (checker : Checker) {raw : ClassId} {args : List Ty}
    {map : Bindings} (hraw : checker.store.Knows raw)
    (hnodup : (checker.store.paramsOf raw).Nodup)
    (hlength : args.length = (checker.store.paramsOf raw).length)
    (hresolves : Resolves map (Ty.varsAll args)) (fuel : Nat) :
    checker.answer (checker.walkWithin fuel (.applied raw args none) raw map) =
        .error checker.tooDeep ∨
      ∃ bound, checker.answer (checker.walkWithin fuel (.applied raw args none) raw map) =
          .ok (some bound) ∧
        ∀ v, bound.get? v =
          (((checker.store.paramsOf raw).zip (Ty.substAll map.get? args)).lookup v).or
            (map.get? v) := by
  cases fuel with
  | zero => exact Or.inl rfl
  | succ fuel =>
      obtain ⟨decl, hdecl⟩ := hraw
      have hparams := Store.paramsOf_eq hdecl
      rw [checker.answer_walkWithin_own hdecl (hlength.trans (by rw [hparams])) (by simp),
        ← hparams]
      rcases checker.bindArguments_lookup fuel _ args map hnodup hlength.symm hresolves
        (fun _ _ => rfl) with h | ⟨bound, h, hlookup⟩
      · exact Or.inl (by rw [h, Except.map])
      · exact Or.inr ⟨bound, by rw [h, Except.map], hlookup⟩

/-! ## Comparing arguments -/

/-- Every parameter is bound to the same finished type in both records. -/
def BoundAlike (store : Store) (params : List TypeVarId) (m m' : Bindings) : Prop :=
  ∀ v ∈ params, ∃ ty, m.get? v = some ty ∧ m'.get? v = some ty ∧
    store.Finished store.groundTypes ty

section Rules

variable (horder : checker.store.Orderly)
  {assign assign' : AssignDown} {contain contain' : ContainDown} {k k' : Option Bindings}

/-- Two questions about assignability agree on types without variables. -/
def AssignAgree (checker : Checker) (k k' : Option Bindings) (assign assign' : AssignDown) : Prop :=
  ∀ (source : Option Ty) (target : Ty),
    (∀ ty, source = some ty → checker.store.Finished checker.store.groundTypes ty) →
    checker.store.Finished checker.store.groundTypes target ∨ (∃ id, target = .cls id) →
    checker.Agree (checker.answer (assign source target k))
      (checker.answer (assign' source target k'))

/-- Two questions about containment agree on types without variables. -/
def ContainAgree (checker : Checker) (k k' : Option Bindings) (contain contain' : ContainDown) :
    Prop :=
  ∀ (given : Ty) (upper lower : List Ty),
    checker.store.Finished checker.store.groundTypes given →
    checker.store.Finished checker.store.groundTypes (.wildcard upper lower) →
    checker.Agree (checker.answer (contain given upper lower k))
      (checker.answer (contain' given upper lower k'))

include horder

/-- **Comparing arguments depends on what the parameters of the target are bound to only.** -/
lemma agree_argumentsFit (hcontain : checker.ContainAgree k k' contain contain')
    {source : Ty} {sourceMap m m' : Bindings}
    (hsource : checker.store.Finished checker.store.groundTypes source)
    (hsourceMap : sourceMap.Carries checker.store checker.store.groundTypes) (target target' : Ty) :
    ∀ params : List TypeVarId, BoundAlike checker.store params m m' →
      checker.Agree
        (checker.answer (checker.argumentsFit contain source target sourceMap m k params))
        (checker.answer (checker.argumentsFit contain' source target' sourceMap m' k' params))
  | [], _ => .refl _
  | v :: params, halike => by
    obtain ⟨⟨wanted, hm, hm', hwanted⟩, hrest'⟩ := List.forall_mem_cons.mp halike
    have hrest := agree_argumentsFit hcontain hsource hsourceMap target target' params hrest'
    have hvar := hwanted.ground.var?_eq_none
    have hgiven := ends_foundArgument horder.wellFormed v hsourceMap hsource
    simp only [argumentsFit, answer_bind, answer_foundArgument_of_get? checker hm hvar,
      answer_foundArgument_of_get? checker hm' hvar, ok_bind]
    refine (Agree.refl (checker.answer (checker.foundArgument v sourceMap source))).bind ?_
    intro given hfound _
    rw [hfound] at hgiven
    cases given with
    | none => exact hrest
    | some given =>
        dsimp only
        by_cases hsame : given == wanted
        · simpa only [hsame, if_true] using hrest
        · simp only [hsame, Bool.false_eq_true, if_false]
          cases wanted with
          | wildcard upper lower =>
              simp only [answer_bind]
              refine (hcontain given upper lower (hgiven given rfl) hwanted).bind fun fits _ _ => ?_
              cases fits with
              | true => exact hrest
              | false => exact .refl _
          | _ => exact .refl _

/-- The target of a comparison, an applied class, and the arguments that its context makes of it. -/
structure AppliesTo (checker : Checker) (raw : ClassId) (k : Option Bindings) (args final : List Ty) :
    Prop where
  resolves : Resolves (k.getD .empty) (Ty.varsAll args)
  final_eq : Ty.substAll (k.getD .empty).get? args = final
  known : checker.store.Knows raw
  length : args.length = (checker.store.paramsOf raw).length
  finished : ∀ arg ∈ final, checker.store.Finished checker.store.groundTypes arg

/-- The parameters of the target are bound to the arguments that the context makes of it. -/
lemma AppliesTo.answer_walk {raw : ClassId} {args final : List Ty}
    (h : checker.AppliesTo raw k args final) (fuel : Nat) :
    checker.answer (checker.walkWithin fuel (.applied raw args none) raw (k.getD .empty)) =
        .error checker.tooDeep ∨
      ∃ bound, checker.answer
          (checker.walkWithin fuel (.applied raw args none) raw (k.getD .empty)) =
          .ok (some bound) ∧
        ∀ v ∈ checker.store.paramsOf raw, ∃ ty, checker.store.assigning raw final v = some ty ∧
          bound.get? v = some ty ∧ checker.store.Finished checker.store.groundTypes ty := by
  rcases checker.answer_walkWithin_applied h.known (horder.params_nodup raw) h.length h.resolves
    fuel with hdeep | ⟨bound, hbound, hlookup⟩
  · exact Or.inl hdeep
  · refine Or.inr ⟨bound, hbound, fun v hv => ?_⟩
    have hlength : final.length = (checker.store.paramsOf raw).length := by
      rw [← h.final_eq, Ty.substAll_eq_map, List.length_map, h.length]
    obtain ⟨ty, hty⟩ := Store.exists_assigning hlength hv
    refine ⟨ty, hty, ?_, h.finished ty (Store.mem_of_assigning hty).2⟩
    rw [hlookup v, h.final_eq, show List.lookup v _ = some ty from hty, Option.some_or]

/-- **Assignability to an applied class depends on the arguments that the context makes of it
only.** -/
lemma agree_assignToApplied (hcontain : checker.ContainAgree k k' contain contain') (n n' : Nat)
    {source : Option Ty} {raw : ClassId} {args args' final : List Ty}
    (hsource : ∀ ty, source = some ty → checker.store.Finished checker.store.groundTypes ty)
    (htarget : checker.AppliesTo raw k args final)
    (htarget' : checker.AppliesTo raw k' args' final) :
    checker.Agree
      (checker.answer (checker.assignToApplied (checker.walkWithin n) contain source
        (.applied raw args none) raw k))
      (checker.answer (checker.assignToApplied (checker.walkWithin n') contain' source
        (.applied raw args' none) raw k')) := by
  have hwf := horder.wellFormed
  obtain ⟨decl, hdecl⟩ := htarget.known
  have hparams : decl.edges.params = checker.store.paramsOf raw := (Store.paramsOf_eq hdecl).symm
  rcases source with _ | source
  · exact .refl _
  by_cases harray : source.isArray = true
  · cases source with
    | array component => exact .refl _
    | _ => simp [Ty.isArray] at harray
  have hfinished := hsource source rfl
  have hends := (ends_decisions checker hwf n).1 _ source raw .empty hfinished
    (fun _ => hfinished) (fun _ hv => hv.elim) (Bindings.carries_empty _ _) htarget.known
  simp only [assignToApplied_eq _ _ (show source.isArray = false by simpa using harray),
    compareInstances, answer_bind]
  refine (agree_walk checker n n' source raw .empty).bind fun sourceMap? hwalked _ => ?_
  rw [hwalked] at hends
  cases sourceMap? with
  | none => exact .refl _
  | some sourceMap =>
      simp only [answer_bind]
      rcases htarget.answer_walk horder n with hdeep | ⟨m, hm, hbound⟩
      · rw [hdeep]
        exact .left _
      rcases htarget'.answer_walk horder n' with hdeep | ⟨m', hm', hbound'⟩
      · rw [hdeep]
        exact .right _
      simp only [hm, hm', ok_bind, answer_bind, answer_edgesOf,
        checker.edgesFromStore_of_class hdecl, hparams]
      refine agree_argumentsFit horder hcontain hfinished (hends sourceMap rfl).1 _ _ _ ?_
      intro v hv
      obtain ⟨ty, hassigned, hget, hty⟩ := hbound v hv
      obtain ⟨ty', hassigned', hget', -⟩ := hbound' v hv
      rw [hassigned, Option.some.injEq] at hassigned'
      exact ⟨ty, hget, hassigned' ▸ hget', hty⟩

/-! ## The other rules -/

omit horder in
lemma agree_anyBound (hassign : checker.AssignAgree none none assign assign') {target : Ty}
    (htarget : checker.store.Finished checker.store.groundTypes target) : ∀ bounds : List Ty,
    (∀ bound ∈ bounds, checker.store.Finished checker.store.groundTypes bound) →
    checker.Agree (checker.answer (anyBound assign target none bounds))
      (checker.answer (anyBound assign' target none bounds))
  | [], _ => .refl _
  | bound :: rest, hbounds => by
    obtain ⟨hbound, hrest⟩ := List.forall_mem_cons.mp hbounds
    simp only [anyBound, answer_bind]
    refine (hassign (some bound) target (by rintro _ ⟨⟩; exact hbound) (Or.inl htarget)).bind
      fun fits _ _ => ?_
    cases fits with
    | true => exact .refl _
    | false => exact agree_anyBound hassign htarget rest hrest

omit horder in
/-- A finished type is no variable, so that the rules for variables do not apply. -/
lemma not_finished_var {v : TypeVarId} :
    ¬ checker.store.Finished checker.store.groundTypes (.var v) := by
  intro h
  exact absurd h.ground.var?_eq_none (by simp [Ty.var?])

omit horder in
lemma agree_assignToClass {source : Option Ty} (target : ClassId)
    (hsource : ∀ ty, source = some ty → checker.store.Finished checker.store.groundTypes ty) :
    checker.Agree (checker.answer (checker.assignToClass assign source target))
      (checker.answer (checker.assignToClass assign' source target)) := by
  rcases source with _ | source
  · exact .refl _
  · cases source with
    | var v => exact absurd (hsource _ rfl) not_finished_var
    | _ => exact .refl _

omit horder in
lemma agree_assignComponent (hassign : checker.AssignAgree k k' assign assign') {given wanted : Ty}
    (hgiven : checker.store.Finished checker.store.groundTypes given)
    (hwanted : checker.store.Finished checker.store.groundTypes wanted) :
    checker.Agree (checker.answer (checker.assignComponent assign given wanted k))
      (checker.answer (checker.assignComponent assign' given wanted k')) := by
  simp only [assignComponent, answer_ite]
  split
  · exact .refl _
  · split
    · exact .refl _
    · split
      · exact .refl _
      · exact hassign (some given) wanted (by rintro _ ⟨⟩; exact hgiven) (Or.inl hwanted)

lemma agree_assignToArray (hassign : ∀ k k', checker.AssignAgree k k' assign assign')
    {source : Option Ty} {component : Ty}
    (hsource : ∀ ty, source = some ty → checker.store.Finished checker.store.groundTypes ty)
    (htarget : checker.store.Finished checker.store.groundTypes (.array component)) :
    checker.Agree (checker.answer (checker.assignToArray assign source component k))
      (checker.answer (checker.assignToArray assign' source component k')) := by
  rcases source with _ | source
  · exact .refl _
  · have hfinished := hsource source rfl
    cases hfinished with
    | array hgiven =>
        cases htarget with
        | array hwanted => exact agree_assignComponent (hassign k k') hgiven hwanted
    | wildcard hupper =>
        exact agree_anyBound (hassign none none) htarget _
          (finished_upperBounds horder.wellFormed hupper)
    | var => exact absurd (hsource _ rfl) not_finished_var
    | _ => exact .refl _

/-- **One step of assignability.** -/
lemma agree_assignStep (hassign : ∀ k k', checker.AssignAgree k k' assign assign')
    (hcontain : checker.ContainAgree k k' contain contain') (n n' : Nat) :
    checker.AssignAgree k k' (checker.assignStep (checker.walkWithin n) assign contain)
      (checker.assignStep (checker.walkWithin n') assign' contain') := by
  intro source target hsource htarget
  unfold assignStep
  simp only [answer_ite]
  split
  · exact .refl _
  · cases target with
    | cls id => exact agree_assignToClass id hsource
    | applied raw args owner =>
        obtain ⟨hraw, hlength, rfl, hargs⟩ := (htarget.resolve_right (by simp)).of_applied
        have hground : Ty.varsAll args = [] :=
          Ty.varsAll_eq_nil.mpr fun arg harg => (hargs arg harg).ground
        have happlies (k : Option Bindings) : checker.AppliesTo raw k args args :=
          { resolves := by simp [Resolves, hground]
            final_eq := Ty.substAll_eq_self _ (by simp [hground])
            known := hraw
            length := hlength
            finished := hargs }
        exact agree_assignToApplied horder hcontain n n' hsource (happlies k) (happlies k')
    | array component =>
        exact agree_assignToArray horder hassign hsource (htarget.resolve_right (by simp))
    | wildcard upper lower => exact .refl _
    | var v => exact absurd (htarget.resolve_right (by simp)) not_finished_var

omit horder in
lemma instantiate_of_finished {ty : Ty}
    (h : checker.store.Finished checker.store.groundTypes ty) (k : Option Bindings) :
    checker.instantiate k ty = .ok ty := by
  cases ty with
  | var v => exact absurd h not_finished_var
  | _ => rfl

omit horder in
lemma agree_allAssignTo (hassign : checker.AssignAgree k k' assign assign') {target : Ty}
    (htarget : checker.store.Finished checker.store.groundTypes target) : ∀ sources : List Ty,
    (∀ source ∈ sources, checker.store.Finished checker.store.groundTypes source) →
    checker.Agree (checker.answer (allAssignTo assign target k sources))
      (checker.answer (allAssignTo assign' target k' sources))
  | [], _ => .refl _
  | source :: rest, hsources => by
    obtain ⟨hsource, hrest⟩ := List.forall_mem_cons.mp hsources
    simp only [allAssignTo, answer_bind]
    refine (hassign (some source) target (by rintro _ ⟨⟩; exact hsource) (Or.inl htarget)).bind
      fun fits _ _ => ?_
    cases fits with
    | true => exact agree_allAssignTo hassign htarget rest hrest
    | false => exact .refl _

omit horder in
lemma agree_withinUpper (hassign : checker.AssignAgree k k' assign assign') {sources : List Ty}
    (hsources : ∀ source ∈ sources, checker.store.Finished checker.store.groundTypes source) :
    ∀ bounds : List Ty,
      (∀ bound ∈ bounds, checker.store.Finished checker.store.groundTypes bound) →
      checker.Agree (checker.answer (checker.withinUpper assign sources k bounds))
        (checker.answer (checker.withinUpper assign' sources k' bounds))
  | [], _ => .refl _
  | bound :: rest, hbounds => by
    obtain ⟨hbound, hrest⟩ := List.forall_mem_cons.mp hbounds
    simp only [withinUpper, answer_bind, answer_lift, instantiate_of_finished hbound, ok_bind]
    refine (agree_allAssignTo hassign hbound sources hsources).bind fun fits _ _ => ?_
    cases fits with
    | true => exact agree_withinUpper hassign hsources rest hrest
    | false => exact .refl _

omit horder in
lemma agree_assignToAllLower (hassign : checker.AssignAgree k k' assign assign')
    {source : Option Ty} (hsource : FinishedBound checker.store checker.store.groundTypes source) :
    ∀ targets : List (Option Ty),
      (∀ target ∈ targets, FinishedBound checker.store checker.store.groundTypes target) →
      checker.Agree (checker.answer (assignToAllLower assign source k targets))
        (checker.answer (assignToAllLower assign' source k' targets))
  | [], _ => .refl _
  | target :: rest, htargets => by
    obtain ⟨htarget, hrest⟩ := List.forall_mem_cons.mp htargets
    have hlower : checker.Agree (checker.answer (assignLower assign source target k))
        (checker.answer (assignLower assign' source target k')) := by
      cases target with
      | none => exact .refl _
      | some target => exact hassign source target hsource (Or.inl (htarget target rfl))
    simp only [assignToAllLower, answer_bind]
    refine hlower.bind fun fits _ _ => ?_
    cases fits with
    | true => exact agree_assignToAllLower hassign hsource rest hrest
    | false => exact .refl _

omit horder in
lemma agree_withinLower (hassign : checker.AssignAgree k k' assign assign')
    {targets : List (Option Ty)}
    (htargets : ∀ target ∈ targets, FinishedBound checker.store checker.store.groundTypes target) :
    ∀ bounds : List (Option Ty),
      (∀ bound ∈ bounds, FinishedBound checker.store checker.store.groundTypes bound) →
      checker.Agree (checker.answer (checker.withinLower assign targets k bounds))
        (checker.answer (checker.withinLower assign' targets k' bounds))
  | [], _ => .refl _
  | bound :: rest, hbounds => by
    obtain ⟨hbound, hrest⟩ := List.forall_mem_cons.mp hbounds
    have hinstantiate (k : Option Bindings) : checker.instantiate? k bound = .ok bound := by
      cases bound with
      | none => rfl
      | some ty => simp [instantiate?, instantiate_of_finished (hbound ty rfl), Except.map]
    simp only [withinLower, answer_bind, answer_lift, hinstantiate, ok_bind]
    refine (agree_assignToAllLower hassign hbound targets htargets).bind fun fits _ _ => ?_
    cases fits with
    | true => exact agree_withinLower hassign htargets rest hrest
    | false => exact .refl _

/-- **One step of containment.** -/
lemma agree_containStep (hassign : checker.AssignAgree k k' assign assign') :
    checker.ContainAgree k k' (checker.containStep assign) (checker.containStep assign') := by
  intro given upper lower hgiven hwanted
  have hwf := horder.wellFormed
  cases hwanted with
  | wildcard hupper hlower =>
      have hboth (above : List Ty) (below : List (Option Ty))
          (habove : ∀ ty ∈ above, checker.store.Finished checker.store.groundTypes ty)
          (hbelow : ∀ ty ∈ below, FinishedBound checker.store checker.store.groundTypes ty) :=
        (agree_withinUpper hassign habove _ (finished_upperBounds hwf hupper)).bind
          fun within _ _ => show checker.Agree
            (checker.answer (if within = true then
              checker.withinLower assign below k (lowerBounds lower) else pure false))
            (checker.answer (if within = true then
              checker.withinLower assign' below k' (lowerBounds lower) else pure false)) by
            cases within with
            | true => exact agree_withinLower hassign hbelow _ (finished_lowerBounds hlower)
            | false => exact .refl _
      have hsingle := hboth [given] [some given] (by simpa using hgiven)
        (by simpa [FinishedBound] using hgiven)
      cases hgiven with
      | wildcard hgivenUpper hgivenLower =>
          simp only [containStep, answer_ite]
          split
          · exact .refl _
          · simp only [answer_bind]
            exact hboth _ _ (finished_upperBounds hwf hgivenUpper) (finished_lowerBounds hgivenLower)
      | _ =>
          simp only [containStep, answer_bind]
          exact hsingle

end Rules

/-! ## The recursion -/

/-- **Types without variables are compared alike in every context** and with every amount of fuel,
unless the limit is met. -/
theorem agree_ground (checker : Checker) (horder : checker.store.Orderly) :
    ∀ (n n' : Nat) (k k' : Option Bindings),
      checker.AssignAgree k k' (checker.assignWithin n) (checker.assignWithin n') ∧
        checker.ContainAgree k k' (checker.containWithin n) (checker.containWithin n')
  | 0, n', k, k' => by
    have hassign : checker.AssignAgree k k' (checker.assignWithin 0)
        (checker.assignWithin (n' - 1)) := fun _ _ _ _ => .left _
    refine ⟨fun _ _ _ _ => .left _, fun given upper lower hgiven hwanted => ?_⟩
    simp only [containWithin_eq]
    exact agree_containStep horder hassign given upper lower hgiven hwanted
  | n + 1, 0, k, k' => by
    have hassign : checker.AssignAgree k k' (checker.assignWithin n)
        (checker.assignWithin 0) := fun _ _ _ _ => .right _
    refine ⟨fun _ _ _ _ => .right _, fun given upper lower hgiven hwanted => ?_⟩
    simp only [containWithin_eq]
    exact agree_containStep horder hassign given upper lower hgiven hwanted
  | n + 1, n' + 1, k, k' =>
    ⟨agree_assignStep horder (fun k k' => (agree_ground checker horder n n' k k').1)
      (agree_ground checker horder n n' k k').2 n n',
      agree_containStep horder (agree_ground checker horder n n' k k').1⟩

end Checker

end JavaGenerics
