import JavaGenerics.Arguments
import JavaGenerics.Proofs.Chains
import JavaGenerics.Proofs.Walk

/-!
# The arguments of a type, as seen from the type itself

Seen from `Map<String, Integer>`, the parameter `K` of `Map` is `String`.  The arguments may mention
the parameters of `Map` again, as they do where `Map` itself mentions its own type.  They are bound
all at once, without one being put into the other; but **looking a parameter up follows a chain of
variables, and does not stop where it leaves the arguments.**

* `Checker.Supplies` — each parameter is bound to its argument as it is written, unless the two are
  the same, and `Checker.exists_answer_viewAs_own`: so it is when a type is seen as its own class.
* `Checker.answer_seenFrom_own_iff` — **a parameter is seen as its argument, unless the argument is
  a parameter that has another argument.**  `Map<V, String>` supplies `String` for both.
-/

namespace JavaGenerics

namespace Checker

variable (checker : Checker)

/-! ## What is bound -/

/-- Where nothing is bound, a type that is not nested too deeply stays as it is. -/
lemma substWithin_empty {fuel : Nat} {ty : Ty} (h : ty.nesting < fuel) :
    checker.substWithin .empty fuel ty = .ok ty := by
  rw [checker.substWithin_of_settles .empty fuel ty (checker.settles_empty _), if_pos h,
    Ty.subst_eq_self ty fun v _ => Bindings.get?_empty v]

lemma eq_of_substWithin_empty {fuel : Nat} {ty value : Ty}
    (h : checker.substWithin .empty fuel ty = .ok value) : value = ty := by
  rw [checker.substWithin_of_settles .empty fuel ty (checker.settles_empty _),
    Ty.subst_eq_self ty fun v _ => Bindings.get?_empty v] at h
  split at h
  · exact (Except.ok.inj h).symm
  · cases h

/-- Arguments whose variables can be replaced are bound. -/
lemma exists_bindArguments (fuel : Nat) (before : Bindings) : ∀ (params : List TypeVarId)
    (args : List Ty) (map : Bindings),
    (∀ arg ∈ args, ∃ value, checker.substWithin before fuel arg = .ok value) →
    ∃ bound, checker.bindArguments fuel before params args map = .ok bound
  | [], _, map, _ => ⟨map, by simp [bindArguments]⟩
  | _ :: _, [], map, _ => ⟨map, by simp [bindArguments]⟩
  | param :: params, arg :: args, map, h => by
    obtain ⟨⟨value, hvalue⟩, hrest⟩ := List.forall_mem_cons.mp h
    rw [bindArguments]
    split
    · exact exists_bindArguments fuel before params args map hrest
    · rw [hvalue, ok_bind]
      exact exists_bindArguments fuel before params args _ hrest

/-- **Arguments are bound as they are written**, if nothing was bound before, and those that are the
parameters themselves are not bound. -/
lemma get?_of_bindArguments_empty (fuel : Nat) : ∀ {params : List TypeVarId} {args : List Ty}
    {map bound : Bindings}, params.Nodup → (∀ v ∈ params, map.get? v = none) →
    checker.bindArguments fuel .empty params args map = .ok bound →
    ∀ v ty, bound.get? v = some ty ↔
      ((v, ty) ∈ params.zip args ∧ ty.var? ≠ some v) ∨ map.get? v = some ty
  | [], _, map, bound, _, _, h => by
    rw [bindArguments] at h
    · simp [← Except.ok.inj h]
    · simp
  | _ :: _, [], map, bound, _, _, h => by
    rw [bindArguments] at h
    · simp [← Except.ok.inj h]
    · simp
  | param :: params, arg :: args, map, bound, hnodup, hfresh, h => by
    obtain ⟨hparam, hnodup'⟩ := List.nodup_cons.mp hnodup
    obtain ⟨hnone, hfresh'⟩ := List.forall_mem_cons.mp hfresh
    intro v ty
    simp only [List.zip_cons_cons, List.mem_cons, Prod.mk.injEq]
    rw [bindArguments] at h
    split at h
    · rename_i hself
      rw [get?_of_bindArguments_empty fuel hnodup' hfresh' h]
      have hskipped : ¬ ((v = param ∧ ty = arg) ∧ ty.var? ≠ some v) := by
        rintro ⟨⟨rfl, rfl⟩, hother⟩
        exact hother hself
      tauto
    · rename_i hself
      obtain ⟨value, hvalue, hrest⟩ := bind_eq_ok.mp h
      obtain rfl := checker.eq_of_substWithin_empty hvalue
      have hfresh'' : ∀ v ∈ params, (map.bind param value).get? v = none := by
        intro v hv
        rw [Bindings.get?_bind, if_neg (by rintro rfl; exact hparam hv), hfresh' v hv]
      rw [get?_of_bindArguments_empty fuel hnodup' hfresh'' hrest, Bindings.get?_bind]
      by_cases hv : v = param
      · subst hv
        have hforeign : (v, ty) ∉ params.zip args := fun hmem => hparam (List.of_mem_zip hmem).1
        simp only [hforeign, hnone, if_true, true_and, or_false, false_and, false_or,
          Option.some.injEq, reduceCtorEq]
        exact ⟨fun heq => ⟨heq.symm, heq ▸ hself⟩, fun h => h.1.symm⟩
      · simp [hv]

/-- Each parameter is bound to its argument as it is written, unless the two are the same. -/
def Supplies (params : List TypeVarId) (args : List Ty) (bound : Bindings) : Prop :=
  ∀ v ty, bound.get? v = some ty ↔ (v, ty) ∈ params.zip args ∧ ty.var? ≠ some v

lemma supplies_of_bindArguments {fuel : Nat} {params : List TypeVarId} {args : List Ty}
    {bound : Bindings} (hnodup : params.Nodup)
    (h : checker.bindArguments fuel .empty params args .empty = .ok bound) :
    Supplies params args bound := by
  intro v ty
  rw [checker.get?_of_bindArguments_empty fuel hnodup (fun v _ => Bindings.get?_empty v) h,
    Bindings.get?_empty]
  simp

/-- A variable is not bound exactly if nothing but itself is given for it. -/
lemma Supplies.get?_eq_none_iff {params : List TypeVarId} {args : List Ty} {bound : Bindings}
    (h : Supplies params args bound) (v : TypeVarId) :
    bound.get? v = none ↔ ∀ given, (v, given) ∈ params.zip args → given = .var v := by
  rw [Option.eq_none_iff_forall_ne_some]
  refine forall_congr' fun given => ?_
  rw [ne_eq, h v given, not_and_not_right]
  refine imp_congr_right fun _ => ?_
  cases given <;> simp [Ty.var?]

/-- Seen as an instance of its own class, an applied class supplies its arguments as they are
written. -/
lemma exists_answer_viewAs_own {id : ClassId} {decl : ClassDecl}
    (hdecl : checker.store.class? id = some decl) (hnodup : decl.params.Nodup) {args : List Ty}
    (hlength : args.length = decl.params.length) {owner : Option Ty}
    (howner : ∀ ty, owner = some ty → ty.isApplied = false)
    (hnesting : ∀ arg ∈ args, arg.nesting < checker.limits.maxDepth) :
    ∃ bound, checker.answer (checker.viewAs (.applied id args owner) id .empty) = .ok (some bound) ∧
      Supplies decl.params args bound := by
  obtain ⟨bound, hbound⟩ := checker.exists_bindArguments checker.limits.maxDepth .empty
    decl.params args .empty fun arg harg => ⟨arg, checker.substWithin_empty (hnesting arg harg)⟩
  refine ⟨bound, ?_, checker.supplies_of_bindArguments hnodup hbound⟩
  rw [viewAs, fuel, checker.answer_walkWithin_own hdecl hlength howner, hbound]
  rfl

/-! ## What is seen -/

/-- **What a type supplies for the parameters of its class.**  The class is known and its parameters
are distinct, the arguments are not nested too deeply, and the owner is not applied.  Seen from this
type, a parameter is its argument, exactly unless the argument is a parameter of the class for which
something else is given. -/
theorem answer_seenFrom_own_iff {id : ClassId} {decl : ClassDecl}
    (hdecl : checker.store.class? id = some decl) (hnodup : decl.params.Nodup) {args : List Ty}
    (hlength : args.length = decl.params.length) {owner : Option Ty}
    (howner : ∀ ty, owner = some ty → ty.isApplied = false)
    (hnesting : ∀ arg ∈ args, arg.nesting < checker.limits.maxDepth)
    (hchain : 0 < checker.limits.maxVariableChain) {param : TypeVarId} {arg : Ty}
    (harg : (param, arg) ∈ decl.params.zip args) :
    checker.answer (checker.seenFrom (.applied id args owner) id (.var param)) = .ok arg ↔
      ∀ other, arg = .var other →
        ∀ given, (other, given) ∈ decl.params.zip args → given = .var other := by
  obtain ⟨bound, hview, hsupplies⟩ :=
    checker.exists_answer_viewAs_own hdecl hnodup hlength howner hnesting
  have hseen : checker.answer (checker.seenFrom (.applied id args owner) id (.var param)) =
      checker.replaceVar param bound := by
    simp [seenFrom, hview, substitute, fuel, substWithin]
  rw [hseen]
  simp only [← hsupplies.get?_eq_none_iff]
  constructor
  · rintro hreplaced other rfl
    exact ((checker.eq_var_iff_of_replaceVar hreplaced other).mp rfl).2
  · intro hloose
    by_cases hself : arg.var? = some param
    · cases arg with
      | var v =>
          obtain rfl := Option.some.inj hself
          exact checker.replaceVar_of_none (hloose v rfl)
      | _ => cases hself
    · have hbound : bound.get? param = some arg := (hsupplies param arg).mpr ⟨harg, hself⟩
      cases arg with
      | var other => exact checker.replaceVar_of_loose hchain hbound (hloose other rfl)
      | _ => exact checker.replaceVar_of_get? hbound rfl

/-- Among the collection classes, `Map` has the parameters `K` and `V`.  Seen from `Map<V, V>`, `K`
is `V`. -/
theorem mapOfOwnVariable_seen :
    let checker : Checker := { store := .collections }
    checker.answer (checker.seenFrom
      (.applied ⟨30⟩ [.var ⟨9⟩, .var ⟨9⟩] none) ⟨30⟩ (.var ⟨8⟩)) = .ok (.var ⟨9⟩) := by
  intro checker
  obtain ⟨decl, hdecl, hparams⟩ : ∃ decl, Store.collections.class? ⟨30⟩ = some decl ∧
      decl.params = [⟨8⟩, ⟨9⟩] := ⟨_, rfl, rfl⟩
  refine (checker.answer_seenFrom_own_iff hdecl (by simp [hparams]) (by simp [hparams])
    (by simp) (by decide) (by decide) (by simp [hparams])).mpr ?_
  intro other hother given hgiven
  obtain rfl := Ty.var.inj hother
  simpa [hparams] using hgiven

/-- Seen from `Map<V, String>`, `K` is `String`; seen from `Map<V, K>`, it is nothing. -/
theorem mapOfSwappedVariables_seen :
    let checker : Checker := { store := .collections }
    checker.answer (checker.seenFrom
        (.applied ⟨30⟩ [.var ⟨9⟩, .cls ⟨5⟩] none) ⟨30⟩ (.var ⟨8⟩)) = .ok (.cls ⟨5⟩) ∧
      checker.answer (checker.seenFrom
        (.applied ⟨30⟩ [.var ⟨9⟩, .var ⟨8⟩] none) ⟨30⟩ (.var ⟨8⟩)) =
          .error (.cyclicVariable "K") :=
  ⟨rfl, rfl⟩

end Checker

end JavaGenerics
