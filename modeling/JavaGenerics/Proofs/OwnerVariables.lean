import JavaGenerics.Erasure
import JavaGenerics.Store.Stock
import JavaGenerics.Proofs.SimultaneousSubstitution

/-!
# Variables in owners

Whether a type mentions a variable, and what is left of it when variables are replaced, are two
walks through the same type.  They do not visit the same places: substitution replaces the variables
of an owner, and the search for variables does not look there.  Types that differ in an owner only
are equal as far as the language is concerned, so the difference does not show in a comparison.

* `Ty.withoutOwners` — a type with its owners dropped at every depth.  `Ty.beq_iff` says that two
  types are equal exactly if they are the same without them.
* `Checker.answer_mentionsVariables_iff` — **the search says no exactly if no variable occurs
  outside of owners**, and no generic class stands there without arguments.
* `Checker.eq_self_iff_of_substWithin` — a substitution leaves a type as it is, owners included,
  exactly if it replaces each of its variables by itself.
* `Checker.unchanged_of_mentions_none` — so a type without mention of variables is replaced by an
  equal one, but **it is left as it is by all substitutions only if no owner holds a variable**.
* `Checker.entryOfVariables_changed` — an owner that holds one.
-/

namespace JavaGenerics

namespace Ty

/-! ## Types without their owners -/

mutual

/-- The type with its owners dropped, at every depth. -/
def withoutOwners : Ty → Ty
  | .cls id => .cls id
  | .applied raw args _ => .applied raw (withoutOwnersAll args) none
  | .var v => .var v
  | .wildcard upper lower => .wildcard (withoutOwnersAll upper) (withoutOwnersAll lower)
  | .array component => .array (withoutOwners component)

def withoutOwnersAll : List Ty → List Ty
  | [] => []
  | ty :: rest => withoutOwners ty :: withoutOwnersAll rest

end

mutual

theorem same_iff_withoutOwners : ∀ a b : Ty, same a b = true ↔ a.withoutOwners = b.withoutOwners
  | .cls _, b => by cases b <;> simp [same, withoutOwners]
  | .applied _ args _, b => by
    cases b with
    | applied _ args' _ => simp [same, withoutOwners, sameAll_iff_withoutOwnersAll args args']
    | _ => simp [same, withoutOwners]
  | .var _, b => by cases b <;> simp [same, withoutOwners]
  | .wildcard upper lower, b => by
    cases b with
    | wildcard upper' lower' =>
        simp [same, withoutOwners, sameAll_iff_withoutOwnersAll upper upper',
          sameAll_iff_withoutOwnersAll lower lower']
    | _ => simp [same, withoutOwners]
  | .array component, b => by
    cases b with
    | array component' => simp [same, withoutOwners, same_iff_withoutOwners component component']
    | _ => simp [same, withoutOwners]

theorem sameAll_iff_withoutOwnersAll :
    ∀ as bs : List Ty, sameAll as bs = true ↔ withoutOwnersAll as = withoutOwnersAll bs
  | [], bs => by cases bs <;> simp [sameAll, withoutOwnersAll]
  | a :: as, bs => by
    cases bs with
    | nil => simp [sameAll, withoutOwnersAll]
    | cons b bs =>
        simp [sameAll, withoutOwnersAll, same_iff_withoutOwners a b,
          sameAll_iff_withoutOwnersAll as bs]

end

mutual

/-- Owners may be dropped before or after variables are replaced. -/
theorem withoutOwners_subst {σ : TypeVarId → Option Ty} : ∀ ty : Ty,
    (subst σ ty).withoutOwners = subst (fun v => (σ v).map withoutOwners) ty.withoutOwners
  | .cls _ => rfl
  | .applied _ args _ => by
    rw [subst, withoutOwners, withoutOwners, withoutOwnersAll_substAll args]
    rfl
  | .var v => by cases hv : σ v <;> simp [subst, withoutOwners, hv]
  | .wildcard upper lower => by
    rw [subst, withoutOwners, withoutOwners, withoutOwnersAll_substAll upper,
      withoutOwnersAll_substAll lower]
    rfl
  | .array component => by
    rw [subst, withoutOwners, withoutOwners, withoutOwners_subst component]
    rfl

theorem withoutOwnersAll_substAll {σ : TypeVarId → Option Ty} : ∀ types : List Ty,
    withoutOwnersAll (substAll σ types) =
      substAll (fun v => (σ v).map withoutOwners) (withoutOwnersAll types)
  | [] => rfl
  | ty :: rest => by
    rw [substAll, withoutOwnersAll, withoutOwnersAll, withoutOwners_subst ty,
      withoutOwnersAll_substAll rest]
    rfl

end

/-- **Equality disregards owners, and nothing else.** -/
lemma beq_iff {a b : Ty} : (a == b) = true ↔ a.withoutOwners = b.withoutOwners :=
  same_iff_withoutOwners a b

mutual

/-- The classes that stand in a type without arguments, outside of owners. -/
def bareClasses : Ty → List ClassId
  | .cls id => [id]
  | .applied _ args _ => bareClassesAll args
  | .var _ => []
  | .wildcard upper lower => bareClassesAll upper ++ bareClassesAll lower
  | .array component => bareClasses component

def bareClassesAll : List Ty → List ClassId
  | [] => []
  | ty :: rest => bareClasses ty ++ bareClassesAll rest

end

end Ty

/-- A class of the store that declares no parameters. -/
def Store.NonGeneric (store : Store) (id : ClassId) : Prop :=
  ∃ decl, store.class? id = some decl ∧ decl.params = []

namespace Checker

variable (checker : Checker)

/-! ## The search for variables -/

/-- Of two questions in a row the second is asked if the answer to the first is no. -/
lemma answer_or_eq_false_iff {p q : Query Bool} :
    checker.answer (do if ← p then pure true else q) = .ok false ↔
      checker.answer p = .ok false ∧ checker.answer q = .ok false := by
  rw [answer_bind]
  cases hp : checker.answer p with
  | error e => simp
  | ok b => cases b <;> simp

lemma answer_mentionsVariables_cls_iff {id : ClassId} :
    checker.answer (mentionsVariables (.cls id)) = .ok false ↔ checker.store.NonGeneric id := by
  simp only [mentionsVariables, answer_bind, answer_edgesOf, answer_pure, Store.NonGeneric]
  constructor
  · intro h
    obtain ⟨edges, hedges, hparams⟩ := bind_eq_ok.mp h
    obtain ⟨decl, hdecl, rfl⟩ := checker.class_of_edgesFromStore hedges
    exact ⟨decl, hdecl, by simpa [ClassDecl.edges] using hparams⟩
  · rintro ⟨decl, hdecl, hparams⟩
    rw [checker.edgesFromStore_of_class hdecl]
    simp [ClassDecl.edges, hparams]

mutual

/-- **What it means that no variable is mentioned.** -/
theorem answer_mentionsVariables_iff : ∀ ty : Ty,
    checker.answer (mentionsVariables ty) = .ok false ↔
      ty.withoutOwners.Ground ∧ ∀ id ∈ ty.bareClasses, checker.store.NonGeneric id
  | .cls id => by
    rw [answer_mentionsVariables_cls_iff]
    simp [Ty.withoutOwners, Ty.Ground, Ty.vars, Ty.bareClasses]
  | .applied raw args owner => by
    rw [mentionsVariables, answer_anyMentionsVariables_iff args]
    simp [Ty.withoutOwners, Ty.Ground, Ty.vars, Ty.varsOwner, Ty.bareClasses]
  | .var v => by simp [mentionsVariables, Ty.withoutOwners, Ty.Ground, Ty.vars]
  | .wildcard upper lower => by
    rw [mentionsVariables, answer_or_eq_false_iff, answer_anyMentionsVariables_iff upper,
      answer_anyMentionsVariables_iff lower]
    simp only [Ty.withoutOwners, Ty.Ground, Ty.vars, Ty.bareClasses, List.append_eq_nil_iff,
      List.forall_mem_append]
    tauto
  | .array component => by
    rw [mentionsVariables, answer_mentionsVariables_iff component]
    rfl

theorem answer_anyMentionsVariables_iff : ∀ types : List Ty,
    checker.answer (anyMentionsVariables types) = .ok false ↔
      Ty.varsAll (Ty.withoutOwnersAll types) = [] ∧
        ∀ id ∈ Ty.bareClassesAll types, checker.store.NonGeneric id
  | [] => by simp [anyMentionsVariables, Ty.withoutOwnersAll, Ty.varsAll, Ty.bareClassesAll]
  | ty :: rest => by
    rw [anyMentionsVariables, answer_or_eq_false_iff, answer_mentionsVariables_iff ty,
      answer_anyMentionsVariables_iff rest]
    simp only [Ty.withoutOwnersAll, Ty.varsAll, Ty.bareClassesAll, Ty.Ground,
      List.append_eq_nil_iff, List.forall_mem_append]
    tauto

end

/-! ## What a substitution leaves as it is -/

variable {checker}

/-- Where no variable stands outside of owners, nothing changes outside of owners. -/
lemma withoutOwners_of_substWithin {map : Bindings} (depth : Nat) (ty : Ty) {value : Ty}
    (hground : ty.withoutOwners.Ground) (h : checker.substWithin map depth ty = .ok value) :
    value.withoutOwners = ty.withoutOwners := by
  rw [eq_subst_of_substWithin h, Ty.withoutOwners_subst, hground.subst_eq]

/-- The bindings replace each of the variables by itself. -/
def Keeps (checker : Checker) (map : Bindings) (vars : List TypeVarId) : Prop :=
  ∀ v ∈ vars, checker.replaceVar v map = .ok (.var v)

/-- **A substitution leaves a type as it is, owners included, exactly if it replaces every variable
by itself.** -/
theorem eq_self_iff_of_substWithin {map : Bindings} (depth : Nat) (ty : Ty) {value : Ty}
    (h : checker.substWithin map depth ty = .ok value) :
    value = ty ↔ checker.Keeps map ty.vars := by
  obtain ⟨⟨-, hreplaces⟩, rfl⟩ := (substWithin_eq_ok_iff depth ty).mp h
  refine Ty.subst_eq_self_iff.trans (forall₂_congr fun v hv => ?_)
  obtain ⟨ty, hty⟩ := hreplaces v hv
  rw [standIn_eq_some_iff.mpr hty, Option.getD_some, hty, Except.ok.injEq]

/-- A single binding, of a variable to a class, is put in for the variable where it occurs. -/
lemma exists_substitute_of_mem (store : Store) {ty : Ty} {v : TypeVarId} (hv : v ∈ ty.vars) :
    ∃ (limits : Limits) (map : Bindings) (value : Ty),
      Checker.substitute { store := store, limits := limits } ty map = .ok value ∧ value ≠ ty := by
  let checker : Checker := { store := store, limits := { maxDepth := ty.nesting } }
  let map := Bindings.empty.bind v store.objectTy
  have hget : ∀ w, map.get? w = if w = v then some store.objectTy else none := fun w => by
    rw [Bindings.get?_bind, Bindings.get?_empty]
  have hself : checker.replaceVar v map = .ok store.objectTy :=
    checker.replaceVar_of_get? (by rw [hget, if_pos rfl]) rfl
  have hsettles : checker.Settles map ty.vars := fun w _ => by
    by_cases hw : w = v
    · rw [hw, hself, hget, if_pos rfl, Option.getD_some]
    · have hnone : map.get? w = none := by rw [hget, if_neg hw]
      rw [checker.replaceVar_of_none hnone, hnone, Option.getD_none]
  have hvalue : checker.substitute ty map = .ok (ty.subst map.get?) := by
    rw [substitute, checker.substWithin_of_settles map _ ty hsettles]
    exact if_pos (Nat.lt_succ_self _)
  refine ⟨checker.limits, map, ty.subst map.get?, hvalue, fun heq => ?_⟩
  have hkept := (eq_self_iff_of_substWithin _ ty hvalue).mp heq v hv
  rw [hself] at hkept
  cases hkept

/-- **A type without mention of variables.**  If the search says that a type mentions no variable,
none occurs outside of its owners, and substitution replaces the type by an equal one, of which the
owners only may differ: they do exactly where the bindings do not replace each of their variables by
itself.  So all substitutions leave the type as it is if, and only if, its owners hold no variable
either. -/
theorem unchanged_of_mentions_none {ty : Ty}
    (h : checker.answer (mentionsVariables ty) = .ok false) :
    ty.withoutOwners.vars = [] ∧
      (∀ limits map value,
        Checker.substitute { store := checker.store, limits := limits } ty map = .ok value →
          (value == ty) = true ∧ (value = ty ↔ ∀ v ∈ ty.vars,
            Checker.replaceVar { store := checker.store, limits := limits } v map = .ok (.var v))) ∧
      ((∀ limits map value,
        Checker.substitute { store := checker.store, limits := limits } ty map = .ok value →
          value = ty) ↔ ty.vars = []) := by
  have hground := ((checker.answer_mentionsVariables_iff ty).mp h).1
  refine ⟨hground, fun limits map value hvalue => ⟨?_, eq_self_iff_of_substWithin _ ty hvalue⟩, ?_⟩
  · exact Ty.beq_iff.mpr (withoutOwners_of_substWithin _ ty hground hvalue)
  · constructor
    · intro hunchanged
      by_contra hvars
      obtain ⟨v, hv⟩ := List.exists_mem_of_ne_nil _ hvars
      obtain ⟨limits, map, value, hvalue, hne⟩ := exists_substitute_of_mem checker.store hv
      exact hne (hunchanged limits map value hvalue)
    · intro hvars limits map value hvalue
      refine (eq_self_iff_of_substWithin _ ty hvalue).mpr fun v hv => ?_
      rw [hvars] at hv
      cases hv

/-! ## An owner that holds variables -/

/-- An entry of strings and integers, in a map of the parameters of `Map`. -/
def entryOfVariables : Ty :=
  .applied ⟨31⟩ [.cls ⟨5⟩, .cls ⟨16⟩] (some (.app ⟨30⟩ [.var ⟨8⟩, .var ⟨9⟩]))

/-- Whatever is put in for the variables, it is an entry of strings and integers. -/
theorem entryOfVariables_equal :
    Checker.answer { store := .collections } (mentionsVariables entryOfVariables) = .ok false ∧
      ∀ map value, Checker.substitute { store := .collections } entryOfVariables map = .ok value →
        (value == entryOfVariables) = true :=
  have hnone : Checker.answer { store := .collections } (mentionsVariables entryOfVariables) =
    .ok false := rfl
  ⟨hnone, fun map value hvalue => ((unchanged_of_mentions_none hnone).2.1 {} map value hvalue).1⟩

/-- **Variables that are not found.**  The search says that the entry mentions no variable; but its
owner holds two of them, and one is replaced by a string where it is bound to that. -/
theorem entryOfVariables_changed :
    let checker : Checker := { store := .collections }
    checker.answer (mentionsVariables entryOfVariables) = .ok false ∧
      entryOfVariables.vars = [⟨8⟩, ⟨9⟩] ∧
      checker.substitute entryOfVariables (Bindings.empty.bind ⟨8⟩ (.cls ⟨5⟩)) =
        .ok (.applied ⟨31⟩ [.cls ⟨5⟩, .cls ⟨16⟩] (some (.app ⟨30⟩ [.cls ⟨5⟩, .var ⟨9⟩]))) ∧
      Ty.applied ⟨31⟩ [.cls ⟨5⟩, .cls ⟨16⟩] (some (.app ⟨30⟩ [.cls ⟨5⟩, .var ⟨9⟩])) ≠
        entryOfVariables :=
  ⟨rfl, rfl, rfl, by simp [entryOfVariables, Ty.app]⟩

end Checker

end JavaGenerics
