import JavaGenerics.Proofs.Containment
import JavaGenerics.Proofs.OwnArguments

/-!
# Invariance of type arguments

Is a `List<A>` a `List<B>`?  Only if `A` is `B`, as far as `A` says what it is.  An argument that is
a variable of some other declaration says nothing: what it stands for is not known here, and it is
accepted as the argument of a raw type would be.  A parameter of `List` itself does count, where it
is passed for itself, as `List<E>` does inside `List`.

* `Checker.Supplies.answer_foundArgument` — what is found of the arguments of an instance, and
  `Checker.Supplies.answer_foundArgument_foreign` — what is not.
* `Checker.answer_argumentsFit_cons` — one parameter is compared, then the others.
* `Checker.answer_assignable_iff_same` — **arguments that are no variables are invariant**, and a
  variable is accepted unless it is the parameter that it is passed for.
* `Checker.listOfForeignVariable_assignable` — a `List<K>`, with the `K` of `Map`, is a
  `List<String>`.
-/

namespace JavaGenerics

/-- Distinct variables have one entry each. -/
lemma eq_of_mem_zip {vars : List TypeVarId} {types : List Ty} (hnodup : vars.Nodup)
    (hlength : types.length = vars.length) {v : TypeVarId} {a b : Ty}
    (ha : (v, a) ∈ vars.zip types) (hb : (v, b) ∈ vars.zip types) : a = b := by
  have hkeys : ((vars.zip types).map Prod.fst).Nodup := by
    rwa [List.map_fst_zip hlength.ge]
  exact congrArg Prod.snd (List.inj_on_of_nodup_map hkeys ha hb rfl)

lemma Ty.beq_app (id : ClassId) (as bs : List Ty) :
    (Ty.app id as == Ty.app id bs) = Ty.sameAll as bs := by
  show Ty.same (Ty.app id as) (Ty.app id bs) = _
  simp [Ty.app, Ty.same]

/-- Arguments in the same place are the same. -/
lemma same_of_mem_zip {v : TypeVarId} {a b : Ty} : ∀ {vars : List TypeVarId} {as bs : List Ty},
    vars.Nodup → Ty.sameAll as bs = true → (v, a) ∈ vars.zip as → (v, b) ∈ vars.zip bs →
    (a == b) = true
  | [], _, _, _, _, ha, _ => by simp at ha
  | _ :: _, [], _, _, _, ha, _ => by simp at ha
  | _ :: _, _ :: _, [], _, _, _, hb => by simp at hb
  | w :: vars, first :: as, second :: bs, hnodup, hsame, ha, hb => by
    obtain ⟨hw, hvars⟩ := List.nodup_cons.mp hnodup
    rw [Ty.sameAll, Bool.and_eq_true] at hsame
    simp only [List.zip_cons_cons, List.mem_cons, Prod.mk.injEq] at ha hb
    rcases ha with ⟨rfl, rfl⟩ | ha <;> rcases hb with ⟨heq, rfl⟩ | hb
    · exact hsame.1
    · exact absurd (List.of_mem_zip hb).1 hw
    · exact absurd (heq ▸ (List.of_mem_zip ha).1) hw
    · exact same_of_mem_zip hvars hsame.2 ha hb

namespace Checker

/-! ## What an instance supplies -/

variable {checker : Checker} {id : ClassId} {decl : ClassDecl} {params : List TypeVarId}
  {args : List Ty} {bound : Bindings} {param v : TypeVarId} {arg : Ty}

/-- An instance passes a variable through exactly if it passes it for itself. -/
lemma answer_passesThrough_app (hdecl : checker.store.class? id = some decl) (v : TypeVarId)
    (args : List Ty) :
    ∃ b, checker.answer (passesThrough v (.app id args)) = .ok b ∧
      (b = true ↔ (v, Ty.var v) ∈ decl.params.zip args) := by
  refine ⟨(decl.params.zip args).any fun entry => entry.1 == v && entry.2.var? == some v, ?_, ?_⟩
  · simp only [Ty.app, passesThrough, answer_bind, answer_edgesOf,
      checker.edgesFromStore_of_class hdecl, ok_bind, answer_ite, answer_pure]
    rw [show decl.edges.params = decl.params from rfl]
    split
    · rename_i hany
      exact congrArg Except.ok hany.symm
    · rename_i hnone
      exact congrArg Except.ok (Bool.eq_false_iff.mpr hnone).symm
  · simp only [List.any_eq_true, Bool.and_eq_true, beq_iff_eq]
    constructor
    · rintro ⟨⟨param, arg⟩, hmem, rfl, hvar⟩
      cases arg with
      | var w =>
          obtain rfl := Option.some.inj hvar
          exact hmem
      | _ => cases hvar
    · exact fun hmem => ⟨_, hmem, rfl, rfl⟩

/-- An argument that is no variable, or the parameter itself, is found as it is written. -/
lemma Supplies.answer_foundArgument (h : Supplies decl.params args bound)
    (hdecl : checker.store.class? id = some decl) (hnodup : decl.params.Nodup)
    (hlength : args.length = decl.params.length)
    (harg : (param, arg) ∈ decl.params.zip args) (hown : ∀ v, arg = .var v → v = param) :
    checker.answer (checker.foundArgument param bound (.app id args)) = .ok (some arg) := by
  cases arg with
  | var v =>
      obtain rfl := hown v rfl
      have hfollow : checker.follow v bound = .ok .unbound := by
        unfold follow followFrom
        simp [(h.get?_eq_none_iff v).mpr fun given hgiven => eq_of_mem_zip hnodup hlength hgiven harg]
      obtain ⟨b, hb, hiff⟩ := answer_passesThrough_app hdecl v args
      rw [hiff.mpr harg] at hb
      simp [foundArgument, hfollow, hb]
  | _ =>
      have hget := (h param _).mpr ⟨harg, by simp [Ty.var?]⟩
      exact answer_foundArgument_of_get? checker hget rfl _

/-- An argument that is a variable of another declaration is not found. -/
lemma Supplies.answer_foundArgument_foreign (h : Supplies decl.params args bound)
    (hdecl : checker.store.class? id = some decl)
    (hchain : 0 < checker.limits.maxVariableChain) (harg : (param, Ty.var v) ∈ decl.params.zip args)
    (hv : v ∉ decl.params) :
    checker.answer (checker.foundArgument param bound (.app id args)) = .ok none := by
  have hne : v ≠ param := fun heq => hv (heq ▸ (List.of_mem_zip harg).1)
  have hget : bound.get? param = some (.var v) :=
    (h param _).mpr ⟨harg, by simpa [Ty.var?] using hne⟩
  have hfollow : checker.follow param bound = .ok (.loose v) := by
    obtain ⟨hops, hhops⟩ := Nat.exists_eq_succ_of_ne_zero hchain.ne'
    have hloose : bound.get? v = none :=
      (h.get?_eq_none_iff v).mpr fun _ hgiven => absurd (List.of_mem_zip hgiven).1 hv
    simp [follow, followFrom, hhops, hget, hloose, hne]
  obtain ⟨b, hb, hiff⟩ := answer_passesThrough_app hdecl v args
  have hfalse : b = false := by
    rw [Bool.eq_false_iff, ne_eq, hiff]
    exact fun hmem => hv (List.of_mem_zip hmem).1
  rw [hfalse] at hb
  simp [foundArgument, hfollow, hb]

/-! ## The comparison -/

variable {contain : ContainDown} {source target : Ty} {sourceMap targetMap : Bindings}
  {context : Option Bindings}

/-- Where a type that is no wildcard is wanted for the first parameter, the argument found for it
has to be the same, if there is one. -/
lemma answer_argumentsFit_cons {want : Ty} (hplain : want.isWildcard = false)
    (hwant : checker.answer (checker.foundArgument param targetMap target) = .ok (some want)) :
    checker.answer (checker.argumentsFit contain source target sourceMap targetMap context
        (param :: params)) =
      checker.answer (checker.foundArgument param sourceMap source) >>= fun found =>
        if ∀ given, found = some given → (given == want) = true then
          checker.answer
            (checker.argumentsFit contain source target sourceMap targetMap context params)
        else .ok false := by
  rw [argumentsFit, answer_bind, hwant, ok_bind, answer_bind]
  congr 1
  funext found
  cases found with
  | none => simp
  | some given =>
      by_cases hsame : (given == want) = true
      · simp [hsame]
      · cases want with
        | wildcard => simp [Ty.isWildcard] at hplain
        | _ => simp [hsame]

/-- Arguments fit exactly if each one that is found is the same as the one wanted in its place, for
wanted arguments that are no wildcards. -/
lemma answer_argumentsFit_iff : ∀ entries : List (TypeVarId × Ty),
    (∀ entry ∈ entries, entry.2.isWildcard = false ∧
      checker.answer (checker.foundArgument entry.1 targetMap target) = .ok (some entry.2)) →
    (checker.answer (checker.argumentsFit contain source target sourceMap targetMap context
        (entries.map Prod.fst)) = .ok true ↔
      ∀ entry ∈ entries, ∃ found,
        checker.answer (checker.foundArgument entry.1 sourceMap source) = .ok found ∧
          ∀ given, found = some given → (given == entry.2) = true)
  | [], _ => by simp [argumentsFit]
  | (param, want) :: entries, hwanted => by
    obtain ⟨⟨hplain, hwant⟩, hwanted'⟩ := List.forall_mem_cons.mp hwanted
    rw [List.map_cons, answer_argumentsFit_cons hplain hwant, bind_eq_ok, List.forall_mem_cons,
      ← answer_argumentsFit_iff entries hwanted']
    constructor
    · rintro ⟨found, hfound, h⟩
      split at h
      · rename_i hsame
        exact ⟨⟨found, hfound, hsame⟩, h⟩
      · simp at h
    · rintro ⟨⟨found, hfound, hsame⟩, h⟩
      exact ⟨found, hfound, by rw [if_pos hsame, h]⟩

/-- The comparison ends if all arguments can be looked for. -/
lemma exists_answer_argumentsFit (contain : ContainDown) (context : Option Bindings) :
    ∀ entries : List (TypeVarId × Ty),
    (∀ entry ∈ entries, entry.2.isWildcard = false ∧
      checker.answer (checker.foundArgument entry.1 targetMap target) = .ok (some entry.2)) →
    (∀ entry ∈ entries, ∃ found,
      checker.answer (checker.foundArgument entry.1 sourceMap source) = .ok found) →
    ∃ b, checker.answer (checker.argumentsFit contain source target sourceMap targetMap context
        (entries.map Prod.fst)) = .ok b ∧
      (b = true ↔ ∀ entry ∈ entries, ∀ given,
        checker.answer (checker.foundArgument entry.1 sourceMap source) = .ok (some given) →
          (given == entry.2) = true)
  | [], _, _ => ⟨true, rfl, by simp⟩
  | (param, want) :: entries, hwanted, hgiven => by
    obtain ⟨⟨hplain, hwant⟩, hwanted'⟩ := List.forall_mem_cons.mp hwanted
    obtain ⟨⟨found, hfound⟩, hgiven'⟩ := List.forall_mem_cons.mp hgiven
    rw [List.map_cons, answer_argumentsFit_cons hplain hwant, hfound, ok_bind]
    simp only [List.forall_mem_cons, hfound, Except.ok.injEq]
    split
    · rename_i hsame
      obtain ⟨b, hb, hiff⟩ := exists_answer_argumentsFit contain context entries hwanted' hgiven'
      exact ⟨b, hb, hiff.trans (and_iff_right hsame).symm⟩
    · rename_i hdiffers
      exact ⟨false, rfl, by simp only [Bool.false_eq_true, hdiffers, false_and]⟩

/-! ## Two instances of one class -/

variable {given wanted : List Ty}

/-- Two instances of a class that are not the same are compared as instances of it. -/
lemma assignable_app_eq (checker : Checker) (id : ClassId)
    (hne : ¬ Ty.sameAll given wanted = true) :
    checker.assignable (some (.app id given)) (.app id wanted) none =
      checker.compareInstances (checker.walkWithin checker.limits.maxDepth)
        (checker.containWithin checker.limits.maxDepth) (.app id given) (.app id wanted) id
        none := by
  have hdiffers : ¬ (some (Ty.app id given) == some (Ty.app id wanted)) = true := by
    rwa [show (some (Ty.app id given) == some (Ty.app id wanted)) = Ty.sameAll given wanted from
      Ty.beq_app id given wanted]
  simp only [assignable, fuel, assignWithin, assignStep, if_neg hdiffers]
  exact assignToApplied_eq _ _ rfl _ _ _

/-- So they are compared by what is found for the parameters. -/
lemma answer_assignable_app (hdecl : checker.store.class? id = some decl)
    (hgiven : given.length = decl.params.length) (hwanted : wanted.length = decl.params.length)
    (hne : ¬ Ty.sameAll given wanted = true) {depth : Nat}
    (hdepth : checker.limits.maxDepth = depth + 1) :
    checker.answer (checker.assignable (some (.app id given)) (.app id wanted) none) =
      checker.bindArguments depth .empty decl.params given .empty >>= fun sourceMap =>
        checker.bindArguments depth .empty decl.params wanted .empty >>= fun targetMap =>
          checker.answer (checker.argumentsFit (checker.containWithin (depth + 1))
            (.app id given) (.app id wanted) sourceMap targetMap none decl.params) := by
  have hwalk (args : List Ty) (hlength : args.length = decl.params.length) :
      checker.answer (checker.walkWithin (depth + 1) (.app id args) id .empty) =
        (checker.bindArguments depth .empty decl.params args .empty).map some :=
    checker.answer_walkWithin_own hdecl hlength (by simp) depth .empty
  rw [assignable_app_eq checker id hne, hdepth, compareInstances, answer_bind,
    hwalk given hgiven]
  cases checker.bindArguments depth .empty decl.params given .empty with
  | error => rfl
  | ok sourceMap =>
      simp only [Except.map, ok_bind, answer_bind, Option.getD_none, hwalk wanted hwanted]
      cases checker.bindArguments depth .empty decl.params wanted .empty with
      | error => rfl
      | ok targetMap =>
          simp only [ok_bind, answer_bind, answer_edgesOf, checker.edgesFromStore_of_class hdecl]
          rfl

/-- Without any depth there is no answer. -/
lemma exists_depth_of_answer (hne : ¬ Ty.sameAll given wanted = true) {b : Bool}
    (h : checker.answer (checker.assignable (some (.app id given)) (.app id wanted) none) = .ok b) :
    ∃ depth, checker.limits.maxDepth = depth + 1 := by
  cases hdepth : checker.limits.maxDepth with
  | succ depth => exact ⟨depth, rfl⟩
  | zero =>
      rw [assignable_app_eq checker id hne, hdepth] at h
      simp [compareInstances, walkWithin] at h

/-- All wanted arguments are found. -/
lemma Supplies.answer_foundArgument_wanted (h : Supplies decl.params wanted bound)
    (hdecl : checker.store.class? id = some decl) (hnodup : decl.params.Nodup)
    (hwanted : wanted.length = decl.params.length)
    (hground : ∀ want ∈ wanted, want.isWildcard = false ∧ want.Ground) :
    ∀ entry ∈ decl.params.zip wanted, entry.2.isWildcard = false ∧
      checker.answer (checker.foundArgument entry.1 bound (.app id wanted)) =
        .ok (some entry.2) := by
  rintro ⟨param, want⟩ hentry
  obtain ⟨hplain, hvars⟩ := hground want (List.of_mem_zip hentry).2
  refine ⟨hplain, h.answer_foundArgument hdecl hnodup hwanted hentry ?_⟩
  rintro v rfl
  exact absurd hvars (by simp [Ty.Ground, Ty.vars])

/-- Instances with the same arguments are assignable to one another under any limits. -/
lemma answer_assignable_of_sameAll (checker : Checker) (id : ClassId)
    (hsame : Ty.sameAll given wanted = true) :
    checker.answer (checker.assignable (some (.app id given)) (.app id wanted) none) = .ok true := by
  have hequal : (some (Ty.app id given) == some (Ty.app id wanted)) = true :=
    (Ty.beq_app id given wanted).trans hsame
  simp only [assignable, fuel, assignWithin, assignStep, if_pos hequal, answer_pure]

/-- An argument that is accepted is the one that is wanted, or it is a variable, and not the
parameter itself. -/
lemma same_or_var_of_assignable (hdecl : checker.store.class? id = some decl)
    (hnodup : decl.params.Nodup) (hgiven : given.length = decl.params.length)
    (hwanted : wanted.length = decl.params.length)
    (hground : ∀ want ∈ wanted, want.isWildcard = false ∧ want.Ground)
    (hne : ¬ Ty.sameAll given wanted = true)
    (h : checker.answer (checker.assignable (some (.app id given)) (.app id wanted) none) = .ok true)
    {want : Ty} (harg : (param, arg) ∈ decl.params.zip given)
    (hwant : (param, want) ∈ decl.params.zip wanted) :
    (arg == want) = true ∨ ∃ v, v ≠ param ∧ arg = .var v := by
  obtain ⟨depth, hdepth⟩ := exists_depth_of_answer hne h
  rw [answer_assignable_app hdecl hgiven hwanted hne hdepth] at h
  obtain ⟨sourceMap, hsource, h⟩ := bind_eq_ok.mp h
  obtain ⟨targetMap, htarget, h⟩ := bind_eq_ok.mp h
  have hsupplies := checker.supplies_of_bindArguments hnodup hsource
  have hall := (checker.supplies_of_bindArguments hnodup htarget).answer_foundArgument_wanted
    hdecl hnodup hwanted hground
  rw [← List.map_fst_zip hwanted.ge, answer_argumentsFit_iff _ hall] at h
  obtain ⟨found, hfound, hfits⟩ := h (param, want) hwant
  by_cases hother : ∃ v, v ≠ param ∧ arg = .var v
  · exact Or.inr hother
  · have hown : ∀ v, arg = .var v → v = param := by
      rintro v rfl
      by_contra hv
      exact hother ⟨v, hv, rfl⟩
    rw [hsupplies.answer_foundArgument hdecl hnodup hgiven harg hown] at hfound
    exact Or.inl (hfits arg (Except.ok.inj hfound).symm)

/-- Where no argument is another parameter of the class, there is an answer, and it accepts
variables of other declarations for anything. -/
lemma exists_answer_assignable_app (hdecl : checker.store.class? id = some decl)
    (hnodup : decl.params.Nodup) (hgiven : given.length = decl.params.length)
    (hwanted : wanted.length = decl.params.length)
    (hground : ∀ want ∈ wanted, want.isWildcard = false ∧ want.Ground)
    (hne : ¬ Ty.sameAll given wanted = true)
    (hown : ∀ param v, (param, Ty.var v) ∈ decl.params.zip given → v ∈ decl.params → v = param)
    (hnesting : ∀ arg ∈ given ++ wanted, arg.nesting + 1 < checker.limits.maxDepth)
    (hchain : 0 < checker.limits.maxVariableChain) :
    ∃ b, checker.answer (checker.assignable (some (.app id given)) (.app id wanted) none) = .ok b ∧
      (b = true ↔ ∀ param arg want, (param, arg) ∈ decl.params.zip given →
        (param, want) ∈ decl.params.zip wanted →
        (arg == want) = true ∨ ∃ v, v ∉ decl.params ∧ arg = .var v) := by
  obtain ⟨depth, hdepth⟩ : ∃ depth, checker.limits.maxDepth = depth + 1 := by
    cases given with
    | nil =>
        obtain rfl := List.length_eq_zero_iff.mp (hwanted.trans hgiven.symm)
        exact absurd rfl hne
    | cons arg given => exact ⟨_, (Nat.succ_pred (by have := hnesting arg (by simp); omega)).symm⟩
  have hbinds (args : List Ty) (hargs : ∀ arg ∈ args, arg ∈ given ++ wanted) :
      ∃ bound, checker.bindArguments depth .empty decl.params args .empty = .ok bound :=
    checker.exists_bindArguments depth .empty decl.params args .empty fun arg harg =>
      ⟨arg, checker.substWithin_empty (by have := hnesting arg (hargs arg harg); omega)⟩
  obtain ⟨sourceMap, hsource⟩ := hbinds given fun arg harg => List.mem_append_left _ harg
  obtain ⟨targetMap, htarget⟩ := hbinds wanted fun arg harg => List.mem_append_right _ harg
  have hsupplies := checker.supplies_of_bindArguments hnodup hsource
  have hall := (checker.supplies_of_bindArguments hnodup htarget).answer_foundArgument_wanted
    hdecl hnodup hwanted hground
  -- Each argument is found, or it is a variable of another declaration.
  have hcases {param : TypeVarId} {arg : Ty} (harg : (param, arg) ∈ decl.params.zip given) :
      (∃ v, v ∉ decl.params ∧ arg = .var v ∧
        checker.answer (checker.foundArgument param sourceMap (.app id given)) = .ok none) ∨
      (¬ ∃ v, v ∉ decl.params ∧ arg = .var v) ∧
        checker.answer (checker.foundArgument param sourceMap (.app id given)) =
          .ok (some arg) := by
    by_cases hforeign : ∃ v, v ∉ decl.params ∧ arg = .var v
    · obtain ⟨v, hv, rfl⟩ := hforeign
      exact Or.inl ⟨v, hv, rfl, hsupplies.answer_foundArgument_foreign hdecl hchain harg hv⟩
    · refine Or.inr ⟨hforeign, hsupplies.answer_foundArgument hdecl hnodup hgiven harg ?_⟩
      rintro v rfl
      by_cases hv : v ∈ decl.params
      · exact hown param v harg hv
      · exact absurd ⟨v, hv, rfl⟩ hforeign
  have hargs {param : TypeVarId} (hparam : param ∈ decl.params) :
      ∃ arg, (param, arg) ∈ decl.params.zip given := by
    rw [← List.map_fst_zip hgiven.ge] at hparam
    obtain ⟨⟨_, arg⟩, harg, rfl⟩ := List.mem_map.mp hparam
    exact ⟨arg, harg⟩
  rw [answer_assignable_app hdecl hgiven hwanted hne hdepth, hsource, ok_bind, htarget, ok_bind]
  obtain ⟨b, hb, hiff⟩ := exists_answer_argumentsFit (checker.containWithin (depth + 1)) none
    (decl.params.zip wanted) hall fun entry hentry => by
      obtain ⟨arg, harg⟩ := hargs (List.of_mem_zip hentry).1
      rcases hcases harg with ⟨-, -, -, hnone⟩ | ⟨-, hsome⟩
      · exact ⟨_, hnone⟩
      · exact ⟨_, hsome⟩
  rw [List.map_fst_zip hwanted.ge] at hb
  refine ⟨b, hb, hiff.trans ⟨fun h param arg want harg hwant => ?_, ?_⟩⟩
  · rcases hcases harg with ⟨v, hv, hvar, -⟩ | ⟨-, hsome⟩
    · exact Or.inr ⟨v, hv, hvar⟩
    · exact Or.inl (h (param, want) hwant arg hsome)
  · rintro h ⟨param, want⟩ hwant found hfound
    obtain ⟨arg, harg⟩ := hargs (List.of_mem_zip hwant).1
    rcases hcases harg with ⟨-, -, -, hnone⟩ | ⟨hknown, hsome⟩
    · rw [hnone] at hfound
      simp at hfound
    · rw [hsome, Except.ok.injEq, Option.some.injEq] at hfound
      exact hfound ▸ (h param arg want harg hwant).resolve_right hknown

/-- **Type arguments are invariant, as far as they are known.**  Where no wildcard or variable is
wanted, one instance of a class is assignable to another only if the arguments are the same, except
that an argument may be a variable other than the parameter that it is passed for.

This is exactly when it is assignable, and there is an answer under all limits but the smallest, if
no argument is another parameter of the class: a variable of another declaration is accepted for
anything.  The instances are not nested in an owner.  With one that passes a variable of its own, as
`Outer<X>` does inside `Outer`, this variable would count as known as well. -/
theorem answer_assignable_iff_same (checker : Checker)
    (hdecl : checker.store.class? id = some decl) (hnodup : decl.params.Nodup)
    (hgiven : given.length = decl.params.length) (hwanted : wanted.length = decl.params.length)
    (hground : ∀ want ∈ wanted, want.isWildcard = false ∧ want.Ground) :
    (checker.answer (checker.assignable (some (.app id given)) (.app id wanted) none) = .ok true →
      ∀ param arg want, (param, arg) ∈ decl.params.zip given →
        (param, want) ∈ decl.params.zip wanted →
        (arg == want) = true ∨ ∃ v, v ≠ param ∧ arg = .var v) ∧
    ((∀ param v, (param, Ty.var v) ∈ decl.params.zip given → v ∈ decl.params → v = param) →
      (∀ arg ∈ given ++ wanted, arg.nesting + 1 < checker.limits.maxDepth) →
      0 < checker.limits.maxVariableChain →
      ∃ b, checker.answer (checker.assignable (some (.app id given)) (.app id wanted) none) =
          .ok b ∧
        (b = true ↔ ∀ param arg want, (param, arg) ∈ decl.params.zip given →
          (param, want) ∈ decl.params.zip wanted →
          (arg == want) = true ∨ ∃ v, v ∉ decl.params ∧ arg = .var v)) := by
  by_cases hsame : Ty.sameAll given wanted = true
  · have hall {param arg want} (harg : (param, arg) ∈ decl.params.zip given)
        (hwant : (param, want) ∈ decl.params.zip wanted) : (arg == want) = true :=
      same_of_mem_zip hnodup hsame harg hwant
    refine ⟨fun _ param arg want harg hwant => Or.inl (hall harg hwant), fun _ _ _ => ?_⟩
    exact ⟨true, answer_assignable_of_sameAll checker id hsame,
      iff_of_true rfl fun param arg want harg hwant => Or.inl (hall harg hwant)⟩
  · exact ⟨fun htrue param arg want harg hwant =>
        same_or_var_of_assignable hdecl hnodup hgiven hwanted hground hsame htrue harg hwant,
      exists_answer_assignable_app hdecl hnodup hgiven hwanted hground hsame⟩

/-- A `Map<List<E>, E>`, with the `E` of `List`, is no `Map<List<String>, String>`, for the `E`
inside `List<E>` is compared.  A `Map<String, E>` is a `Map<String, String>`. -/
theorem mapOfForeignVariable_assignable :
    let checker : Checker := { store := .collections }
    checker.answer (checker.assignable (some (.app ⟨30⟩ [.app ⟨25⟩ [.var ⟨3⟩], .var ⟨3⟩]))
        (.app ⟨30⟩ [.app ⟨25⟩ [.cls ⟨5⟩], .cls ⟨5⟩]) none) = .ok false ∧
      checker.answer (checker.assignable (some (.app ⟨30⟩ [.cls ⟨5⟩, .var ⟨3⟩]))
        (.app ⟨30⟩ [.cls ⟨5⟩, .cls ⟨5⟩]) none) = .ok true := by
  intro checker
  obtain ⟨decl, hdecl, hparams⟩ : ∃ decl, Store.collections.class? ⟨30⟩ = some decl ∧
      decl.params = [⟨8⟩, ⟨9⟩] := ⟨_, rfl, rfl⟩
  have hnodup : decl.params.Nodup := by simp [hparams]
  have hlength (a b : Ty) : [a, b].length = decl.params.length := by simp [hparams]
  constructor
  · obtain ⟨b, hb, hiff⟩ := (answer_assignable_iff_same checker hdecl hnodup
      (hlength (.app ⟨25⟩ [.var ⟨3⟩]) (.var ⟨3⟩)) (hlength (.app ⟨25⟩ [.cls ⟨5⟩]) (.cls ⟨5⟩))
      (by simp [Ty.isWildcard, Ty.Ground, Ty.vars, Ty.varsAll, Ty.varsOwner, Ty.app])).2
      (by simp [hparams, Ty.app]) (by decide) (by decide)
    cases b with
    | false => exact hb
    | true =>
        rcases hiff.mp rfl ⟨8⟩ (.app ⟨25⟩ [.var ⟨3⟩]) (.app ⟨25⟩ [.cls ⟨5⟩]) (by simp [hparams])
          (by simp [hparams]) with hsame | ⟨v, -, hvar⟩
        · exact absurd hsame (by decide)
        · exact absurd hvar (by simp [Ty.app])
  · obtain ⟨b, hb, hiff⟩ := (answer_assignable_iff_same checker hdecl hnodup
      (hlength (.cls ⟨5⟩) (.var ⟨3⟩)) (hlength (.cls ⟨5⟩) (.cls ⟨5⟩))
      (by simp [Ty.isWildcard, Ty.Ground, Ty.vars])).2
      (by simp [hparams]) (by decide) (by decide)
    rw [hb, hiff.mpr]
    intro param arg want harg hwant
    simp only [hparams, List.zip_cons_cons, List.zip_nil_right, List.mem_cons, Prod.mk.injEq,
      List.not_mem_nil, or_false] at harg hwant
    rcases harg with ⟨-, rfl⟩ | ⟨-, rfl⟩
    · refine Or.inl ?_
      rcases hwant with ⟨-, rfl⟩ | ⟨-, rfl⟩ <;> rfl
    · exact Or.inr ⟨⟨3⟩, by simp [hparams], rfl⟩

/-- A `List<K>`, with the `K` of `Map`, is accepted as a `List<String>`. -/
theorem listOfForeignVariable_assignable :
    let checker : Checker := { store := .collections }
    (∃ decl, checker.store.class? ⟨25⟩ = some decl ∧ decl.params = [⟨3⟩]) ∧
      checker.isPrimitive ⟨25⟩ = false ∧ (Ty.var ⟨8⟩).isWildcard = false ∧
      (Ty.cls ⟨5⟩).isWildcard = false ∧ (Ty.cls ⟨5⟩).Ground ∧
      checker.answer (checker.assignable (some (.app ⟨25⟩ [.var ⟨8⟩])) (.app ⟨25⟩ [.cls ⟨5⟩])
        none) = .ok true ∧
      (Ty.var ⟨8⟩ == .cls ⟨5⟩) = false :=
  ⟨⟨_, rfl, rfl⟩, rfl, rfl, rfl, rfl, rfl, rfl⟩

end Checker

end JavaGenerics
