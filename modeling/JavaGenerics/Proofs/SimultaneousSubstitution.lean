import JavaGenerics.Substitution
import JavaGenerics.Proofs.Answering

/-!
# Replacing all variables at once

`Checker.substitute` follows chains of variables and keeps an eye on a limit.  Where the chain of
every variable of a type ends at its first link, none of that matters, and what is left is plain
simultaneous substitution.

* `Ty.vars`, `Ty.nesting` — the variables of a type, and how deeply it is nested.
* `Ty.subst` — simultaneous substitution: no limit, no chains.
* `Checker.substWithin_of_settles` — **under such bindings the two agree exactly**: the guarded
  function yields the substituted type if the fuel exceeds the nesting, and else reports the limit.
* `Checker.substWithin_eq` — so it is where variables are bound to types that are no variables.
* `Checker.substWithin_eq_ok_iff` — under any bindings, **a substitution succeeds exactly if the
  type is not nested too deeply and each of its variables can be replaced**, and what comes out has
  all replacements put in at the same time.
-/

namespace JavaGenerics

namespace Ty

/-! ## Variables -/

mutual

/-- The variables a type mentions, its owners included. -/
def vars : Ty → List TypeVarId
  | .cls _ => []
  | .applied _ args owner => varsAll args ++ varsOwner owner
  | .var v => [v]
  | .wildcard upper lower => varsAll upper ++ varsAll lower
  | .array component => vars component

def varsAll : List Ty → List TypeVarId
  | [] => []
  | ty :: rest => vars ty ++ varsAll rest

def varsOwner : Option Ty → List TypeVarId
  | none => []
  | some owner => vars owner

end

/-- A type without variables. -/
def Ground (ty : Ty) : Prop :=
  ty.vars = []

lemma varsAll_eq_flatMap (types : List Ty) : varsAll types = types.flatMap vars := by
  induction types with
  | nil => rfl
  | cons ty rest ih => simp [varsAll, ih]

lemma mem_varsAll {types : List Ty} {v : TypeVarId} :
    v ∈ varsAll types ↔ ∃ ty ∈ types, v ∈ ty.vars := by
  simp [varsAll_eq_flatMap]

lemma varsAll_eq_nil {types : List Ty} : varsAll types = [] ↔ ∀ ty ∈ types, ty.Ground := by
  simp [varsAll_eq_flatMap, Ground]

/-- A type without variables is no variable. -/
lemma Ground.var?_eq_none {ty : Ty} (h : ty.Ground) : ty.var? = none := by
  cases ty <;> simp_all [Ground, vars, var?]

lemma ground_applied {raw : ClassId} {args : List Ty} {owner : Option Ty} :
    (applied raw args owner).Ground ↔ varsAll args = [] ∧ varsOwner owner = [] := by
  simp [Ground, vars]

/-! ## Nesting -/

mutual

/-- How many levels of types lie below the type itself. -/
def nesting : Ty → Nat
  | .cls _ => 0
  | .applied _ args owner => max (nestingAll args) (nestingOwner owner)
  | .var _ => 0
  | .wildcard upper lower => max (nestingAll upper) (nestingAll lower)
  | .array component => nesting component + 1

/-- How many levels of types a list adds to the type that holds it. -/
def nestingAll : List Ty → Nat
  | [] => 0
  | ty :: rest => max (nesting ty + 1) (nestingAll rest)

def nestingOwner : Option Ty → Nat
  | none => 0
  | some owner => nesting owner + 1

end

/-! ## Substitution -/

mutual

/-- Replaces every variable by what it stands for, all at the same time. -/
def subst (σ : TypeVarId → Option Ty) : Ty → Ty
  | .cls id => .cls id
  | .applied raw args owner => .applied raw (substAll σ args) (substOwner σ owner)
  | .var v => (σ v).getD (.var v)
  | .wildcard upper lower => .wildcard (substAll σ upper) (substAll σ lower)
  | .array component => .array (subst σ component)

def substAll (σ : TypeVarId → Option Ty) : List Ty → List Ty
  | [] => []
  | ty :: rest => subst σ ty :: substAll σ rest

def substOwner (σ : TypeVarId → Option Ty) : Option Ty → Option Ty
  | none => none
  | some owner => some (subst σ owner)

end

lemma substAll_eq_map (σ : TypeVarId → Option Ty) (types : List Ty) :
    substAll σ types = types.map (subst σ) := by
  induction types with
  | nil => rfl
  | cons ty rest ih => simp [substAll, ih]

mutual

/-- **What comes out is told by the variables that occur**: two substitutions agree on a type
exactly if they agree on each of its variables. -/
theorem subst_eq_iff {σ τ : TypeVarId → Option Ty} : ∀ ty : Ty,
    subst σ ty = subst τ ty ↔ ∀ v ∈ ty.vars, (σ v).getD (.var v) = (τ v).getD (.var v)
  | .cls _ => by simp [subst, vars]
  | .applied _ args owner => by
    rw [subst, subst, applied.injEq, vars, List.forall_mem_append, ← substAll_eq_iff args,
      ← substOwner_eq_iff owner]
    simp
  | .var v => by simp [subst, vars]
  | .wildcard upper lower => by
    rw [subst, subst, wildcard.injEq, vars, List.forall_mem_append, ← substAll_eq_iff upper,
      ← substAll_eq_iff lower]
  | .array component => by rw [subst, subst, array.injEq, subst_eq_iff component, vars]

theorem substAll_eq_iff {σ τ : TypeVarId → Option Ty} : ∀ types : List Ty,
    substAll σ types = substAll τ types ↔
      ∀ v ∈ varsAll types, (σ v).getD (.var v) = (τ v).getD (.var v)
  | [] => by simp [substAll, varsAll]
  | ty :: rest => by
    rw [substAll, substAll, List.cons.injEq, varsAll, List.forall_mem_append, ← subst_eq_iff ty,
      ← substAll_eq_iff rest]

theorem substOwner_eq_iff {σ τ : TypeVarId → Option Ty} : ∀ owner : Option Ty,
    substOwner σ owner = substOwner τ owner ↔
      ∀ v ∈ varsOwner owner, (σ v).getD (.var v) = (τ v).getD (.var v)
  | none => by simp [substOwner, varsOwner]
  | some owner => by rw [substOwner, substOwner, Option.some.injEq, subst_eq_iff owner, varsOwner]

end

/-- Substitution depends on the variables that occur only. -/
lemma subst_congr {σ τ : TypeVarId → Option Ty} (ty : Ty) (h : ∀ v ∈ ty.vars, σ v = τ v) :
    subst σ ty = subst τ ty :=
  (subst_eq_iff ty).mpr fun v hv => by rw [h v hv]

lemma substAll_congr {σ τ : TypeVarId → Option Ty} (types : List Ty)
    (h : ∀ v ∈ varsAll types, σ v = τ v) : substAll σ types = substAll τ types :=
  (substAll_eq_iff types).mpr fun v hv => by rw [h v hv]

mutual

/-- Where ground types are put in for all variables, none is left. -/
theorem ground_subst {σ : TypeVarId → Option Ty} :
    ∀ ty : Ty, (∀ v ∈ ty.vars, ∃ t, σ v = some t ∧ t.Ground) → (subst σ ty).Ground
  | .cls _, _ => rfl
  | .applied _ args owner, h => by
    simp only [vars, List.mem_append] at h
    simp only [Ground, subst, vars, List.append_eq_nil_iff]
    exact ⟨varsAll_substAll args fun v hv => h v (Or.inl hv),
      varsOwner_substOwner owner fun v hv => h v (Or.inr hv)⟩
  | .var v, h => by
    obtain ⟨t, ht, hground⟩ := h v (by simp [vars])
    simpa [subst, ht] using hground
  | .wildcard upper lower, h => by
    simp only [vars, List.mem_append] at h
    simp only [Ground, subst, vars, List.append_eq_nil_iff]
    exact ⟨varsAll_substAll upper fun v hv => h v (Or.inl hv),
      varsAll_substAll lower fun v hv => h v (Or.inr hv)⟩
  | .array component, h => ground_subst component h

theorem varsAll_substAll {σ : TypeVarId → Option Ty} :
    ∀ types : List Ty, (∀ v ∈ varsAll types, ∃ t, σ v = some t ∧ t.Ground) →
      varsAll (substAll σ types) = []
  | [], _ => rfl
  | ty :: rest, h => by
    simp only [varsAll, List.mem_append] at h
    simp only [substAll, varsAll, List.append_eq_nil_iff]
    exact ⟨ground_subst ty fun v hv => h v (Or.inl hv),
      varsAll_substAll rest fun v hv => h v (Or.inr hv)⟩

theorem varsOwner_substOwner {σ : TypeVarId → Option Ty} :
    ∀ owner : Option Ty, (∀ v ∈ varsOwner owner, ∃ t, σ v = some t ∧ t.Ground) →
      varsOwner (substOwner σ owner) = []
  | none, _ => rfl
  | some owner, h => ground_subst owner h

end

mutual

/-- Where nothing is put in for any variable, nothing changes. -/
theorem subst_none : ∀ ty : Ty, subst (fun _ => none) ty = ty
  | .cls _ => rfl
  | .applied _ args owner => by rw [subst, substAll_none args, substOwner_none owner]
  | .var _ => rfl
  | .wildcard upper lower => by rw [subst, substAll_none upper, substAll_none lower]
  | .array component => by rw [subst, subst_none component]

theorem substAll_none : ∀ types : List Ty, substAll (fun _ => none) types = types
  | [] => rfl
  | ty :: rest => by rw [substAll, subst_none ty, substAll_none rest]

theorem substOwner_none : ∀ owner : Option Ty, substOwner (fun _ => none) owner = owner
  | none => rfl
  | some owner => by rw [substOwner, subst_none owner]

end

/-- **A type stays as it is exactly if each of its variables does.** -/
lemma subst_eq_self_iff {σ : TypeVarId → Option Ty} {ty : Ty} :
    subst σ ty = ty ↔ ∀ v ∈ ty.vars, (σ v).getD (.var v) = .var v := by
  have hiff := subst_eq_iff (σ := σ) (τ := fun _ => none) ty
  rwa [subst_none] at hiff

lemma subst_eq_self {σ : TypeVarId → Option Ty} (ty : Ty) (h : ∀ v ∈ ty.vars, σ v = none) :
    subst σ ty = ty :=
  (subst_congr ty h).trans (subst_none ty)

lemma substAll_eq_self {σ : TypeVarId → Option Ty} (types : List Ty)
    (h : ∀ v ∈ varsAll types, σ v = none) : substAll σ types = types :=
  (substAll_congr types h).trans (substAll_none types)

lemma Ground.subst_eq {σ : TypeVarId → Option Ty} {ty : Ty} (h : ty.Ground) : subst σ ty = ty :=
  subst_eq_self ty fun v hv => by simp [Ground.eq_1 ty ▸ h] at hv

end Ty

namespace Checker

variable (checker : Checker)

/-! ## The guarded substitution -/

lemma replaceVar_of_substWithin {map : Bindings} {depth : Nat} {v : TypeVarId} {value : Ty}
    (h : checker.substWithin map depth (.var v) = .ok value) :
    checker.replaceVar v map = .ok value := by
  cases depth with
  | zero => simp [substWithin] at h
  | succ depth => simpa only [substWithin] using h

/-- Bindings that resolve each of the variables in a single step, to a type that is no variable. -/
def Resolves (map : Bindings) (vars : List TypeVarId) : Prop :=
  ∀ v ∈ vars, ∃ ty, map.get? v = some ty ∧ ty.var? = none

/-- A chain ends at once where the variable is bound to a type that is no variable. -/
lemma follow_of_get? {map : Bindings} {v : TypeVarId} {ty : Ty} (h : map.get? v = some ty)
    (hvar : ty.var? = none) : checker.follow v map = .ok (.ended ty) := by
  unfold follow followFrom
  cases ty with
  | var w => simp [Ty.var?] at hvar
  | _ => simp [h]

lemma replaceVar_of_get? {map : Bindings} {v : TypeVarId} {ty : Ty} (h : map.get? v = some ty)
    (hvar : ty.var? = none) : checker.replaceVar v map = .ok ty := by
  simp [replaceVar, checker.follow_of_get? h hvar]

/-- A variable that is not bound is replaced by itself. -/
lemma replaceVar_of_none {map : Bindings} {v : TypeVarId} (h : map.get? v = none) :
    checker.replaceVar v map = .ok (.var v) := by
  simp [replaceVar, follow, followFrom, h]

/-- Two guarded results in a row are guarded by both conditions. -/
lemma guarded_bind_guarded {ε α β γ : Type} (c d : Prop) [Decidable c] [Decidable d] (a : α) (b : β)
    (e : ε) (f : α → β → γ) :
    ((if c then Except.ok a else .error e) >>= fun x =>
      (if d then Except.ok b else .error e) >>= fun y => pure (f x y)) =
      if c ∧ d then .ok (f a b) else .error e := by
  by_cases hc : c <;> by_cases hd : d <;> simp [hc, hd]

/-- A variable is replaced by what it is bound to itself, without following a chain. -/
def Settles (map : Bindings) (vars : List TypeVarId) : Prop :=
  ∀ v ∈ vars, checker.replaceVar v map = .ok ((map.get? v).getD (.var v))

/-- Where nothing is bound there is no chain. -/
lemma settles_empty (vars : List TypeVarId) : checker.Settles .empty vars :=
  fun v _ => checker.replaceVar_of_none (Bindings.get?_empty v)

mutual

/-- **Bindings that settle every variable are put in simultaneously**, or the limit is reported
where the type is nested too deeply. -/
theorem substWithin_of_settles (map : Bindings) : ∀ (fuel : Nat) (ty : Ty),
    checker.Settles map ty.vars →
    checker.substWithin map fuel ty =
      if ty.nesting < fuel then .ok (ty.subst map.get?) else .error checker.tooDeep
  | 0, ty, _ => by simp [substWithin]
  | fuel + 1, .cls id, _ => by simp [substWithin, Ty.subst, Ty.nesting]
  | fuel + 1, .var v, h => by simp [substWithin, Ty.subst, Ty.nesting, h v (by simp [Ty.vars])]
  | fuel + 1, .applied raw args owner, h => by
    simp only [Ty.vars, Settles, List.mem_append] at h
    have hargs := substAllWithin_of_settles map fuel args fun v hv => h v (Or.inl hv)
    have howner := substOwnerWithin_of_settles map fuel owner fun v hv => h v (Or.inr hv)
    rw [substWithin, hargs, howner, guarded_bind_guarded]
    simp only [Ty.subst, Ty.nesting, Nat.lt_succ_iff, Nat.max_le]
  | fuel + 1, .wildcard upper lower, h => by
    simp only [Ty.vars, Settles, List.mem_append] at h
    have hupper := substAllWithin_of_settles map fuel upper fun v hv => h v (Or.inl hv)
    have hlower := substAllWithin_of_settles map fuel lower fun v hv => h v (Or.inr hv)
    rw [substWithin, hupper, hlower, guarded_bind_guarded]
    simp only [Ty.subst, Ty.nesting, Nat.lt_succ_iff, Nat.max_le]
  | fuel + 1, .array component, h => by
    simp only [substWithin, substWithin_of_settles map fuel component h, Ty.subst, Ty.nesting,
      Nat.add_lt_add_iff_right]
    by_cases hc : component.nesting < fuel <;> simp [hc]

theorem substAllWithin_of_settles (map : Bindings) : ∀ (fuel : Nat) (types : List Ty),
    checker.Settles map (Ty.varsAll types) →
    checker.substAllWithin map fuel types =
      if Ty.nestingAll types ≤ fuel then .ok (Ty.substAll map.get? types)
      else .error checker.tooDeep
  | fuel, [], _ => by simp [substAllWithin, Ty.substAll, Ty.nestingAll]
  | fuel, ty :: rest, h => by
    simp only [Ty.varsAll, Settles, List.mem_append] at h
    have hty := substWithin_of_settles map fuel ty fun v hv => h v (Or.inl hv)
    have hrest := substAllWithin_of_settles map fuel rest fun v hv => h v (Or.inr hv)
    rw [substAllWithin, hty, hrest, guarded_bind_guarded]
    simp only [Ty.substAll, Ty.nestingAll, Nat.max_le, Nat.succ_le_iff]

theorem substOwnerWithin_of_settles (map : Bindings) : ∀ (fuel : Nat) (owner : Option Ty),
    checker.Settles map (Ty.varsOwner owner) →
    checker.substOwnerWithin map fuel owner =
      if Ty.nestingOwner owner ≤ fuel then .ok (Ty.substOwner map.get? owner)
      else .error checker.tooDeep
  | fuel, none, _ => by simp [substOwnerWithin, Ty.substOwner, Ty.nestingOwner]
  | fuel, some owner, h => by
    simp only [substOwnerWithin, substWithin_of_settles map fuel owner h, Ty.substOwner,
      Ty.nestingOwner, Nat.succ_le_iff]
    by_cases ho : owner.nesting < fuel <;> simp [ho]

end

/-- **Bindings that resolve every variable in one step are put in simultaneously**, or the limit is
reported where the type is nested too deeply. -/
theorem substWithin_eq (map : Bindings) (fuel : Nat) (ty : Ty) (h : Resolves map ty.vars) :
    checker.substWithin map fuel ty =
      if ty.nesting < fuel then .ok (ty.subst map.get?) else .error checker.tooDeep := by
  refine checker.substWithin_of_settles map fuel ty fun v hv => ?_
  obtain ⟨bound, hget, hvar⟩ := h v hv
  rw [checker.replaceVar_of_get? hget hvar, hget, Option.getD_some]

/-! ## When a substitution succeeds -/

/-- What a variable is replaced by, where nothing is wrong with its chain. -/
def standIn (checker : Checker) (map : Bindings) (v : TypeVarId) : Option Ty :=
  (checker.replaceVar v map).toOption

variable {checker}

lemma standIn_eq_some_iff {map : Bindings} {v : TypeVarId} {ty : Ty} :
    checker.standIn map v = some ty ↔ checker.replaceVar v map = .ok ty := by
  rw [standIn]
  cases checker.replaceVar v map <;> simp [Except.toOption]

/-- Each of the variables can be replaced. -/
def Replaces (checker : Checker) (map : Bindings) (vars : List TypeVarId) : Prop :=
  ∀ v ∈ vars, ∃ ty, checker.replaceVar v map = .ok ty

lemma replaces_append {map : Bindings} {vars vars' : List TypeVarId} :
    checker.Replaces map (vars ++ vars') ↔
      checker.Replaces map vars ∧ checker.Replaces map vars' :=
  List.forall_mem_append

/-- Of two results that are put together, each has to be there. -/
lemma both_eq_ok_iff {ε α β γ : Type} {r : Except ε α} {s : Except ε β} {P Q : Prop} {a : α} {b : β}
    (hr : ∀ {x}, r = .ok x ↔ P ∧ a = x) (hs : ∀ {y}, s = .ok y ↔ Q ∧ b = y) (f : α → β → γ)
    {c : γ} :
    (r >>= fun x => s >>= fun y => pure (f x y)) = .ok c ↔ (P ∧ Q) ∧ f a b = c := by
  simp only [bind_eq_ok, hr, hs, pure_eq_ok, Except.ok.injEq]
  constructor
  · rintro ⟨_, ⟨hP, rfl⟩, _, ⟨hQ, rfl⟩, hc⟩
    exact ⟨⟨hP, hQ⟩, hc⟩
  · rintro ⟨⟨hP, hQ⟩, hc⟩
    exact ⟨a, ⟨hP, rfl⟩, b, ⟨hQ, rfl⟩, hc⟩

mutual

/-- **A substitution succeeds exactly if the type is not nested too deeply and each of its variables
can be replaced**, and puts in all replacements at the same time. -/
theorem substWithin_eq_ok_iff {map : Bindings} : ∀ (fuel : Nat) (ty : Ty) {value : Ty},
    checker.substWithin map fuel ty = .ok value ↔
      (ty.nesting < fuel ∧ checker.Replaces map ty.vars) ∧ ty.subst (checker.standIn map) = value
  | 0, ty, _ => by simp [substWithin]
  | fuel + 1, .cls id, _ => by simp [substWithin, Ty.nesting, Ty.vars, Ty.subst, Replaces]
  | fuel + 1, .var v, value => by
    cases hreplaced : checker.replaceVar v map <;>
      simp [substWithin, Ty.nesting, Ty.vars, Ty.subst, Replaces, standIn, hreplaced,
        Except.toOption]
  | fuel + 1, .applied raw args owner, value => by
    rw [substWithin, both_eq_ok_iff (substAllWithin_eq_ok_iff fuel args)
      (substOwnerWithin_eq_ok_iff fuel owner), and_and_and_comm, ← Nat.max_le, ← replaces_append,
      ← Nat.lt_succ_iff]
    rfl
  | fuel + 1, .wildcard upper lower, value => by
    rw [substWithin, both_eq_ok_iff (substAllWithin_eq_ok_iff fuel upper)
      (substAllWithin_eq_ok_iff fuel lower), and_and_and_comm, ← Nat.max_le, ← replaces_append,
      ← Nat.lt_succ_iff]
    rfl
  | fuel + 1, .array component, value => by
    simp only [substWithin, bind_eq_ok, substWithin_eq_ok_iff fuel component, and_assoc,
      exists_and_left, exists_eq_left', pure_eq_ok, Except.ok.injEq, Ty.nesting, Ty.vars, Ty.subst,
      Nat.add_lt_add_iff_right]

theorem substAllWithin_eq_ok_iff {map : Bindings} : ∀ (fuel : Nat) (types : List Ty)
    {values : List Ty},
    checker.substAllWithin map fuel types = .ok values ↔
      (Ty.nestingAll types ≤ fuel ∧ checker.Replaces map (Ty.varsAll types)) ∧
        Ty.substAll (checker.standIn map) types = values
  | fuel, [], _ => by
    simp [substAllWithin, Ty.nestingAll, Ty.varsAll, Ty.substAll, Replaces]
  | fuel, ty :: rest, values => by
    rw [substAllWithin, both_eq_ok_iff (substWithin_eq_ok_iff fuel ty)
      (substAllWithin_eq_ok_iff fuel rest), and_and_and_comm, ← Nat.succ_le_iff, ← Nat.max_le,
      ← replaces_append]
    rfl

theorem substOwnerWithin_eq_ok_iff {map : Bindings} : ∀ (fuel : Nat) (owner : Option Ty)
    {value : Option Ty},
    checker.substOwnerWithin map fuel owner = .ok value ↔
      (Ty.nestingOwner owner ≤ fuel ∧ checker.Replaces map (Ty.varsOwner owner)) ∧
        Ty.substOwner (checker.standIn map) owner = value
  | fuel, none, _ => by
    simp [substOwnerWithin, Ty.nestingOwner, Ty.varsOwner, Ty.substOwner, Replaces]
  | fuel, some owner, value => by
    simp only [substOwnerWithin, bind_eq_ok, substWithin_eq_ok_iff fuel owner, and_assoc,
      exists_and_left, exists_eq_left', pure_eq_ok, Except.ok.injEq, Ty.nestingOwner, Ty.varsOwner,
      Ty.substOwner, Nat.succ_le_iff]

end

/-- What comes out has all replacements put in. -/
lemma eq_subst_of_substWithin {map : Bindings} {fuel : Nat} {ty value : Ty}
    (h : checker.substWithin map fuel ty = .ok value) : value = ty.subst (checker.standIn map) :=
  ((substWithin_eq_ok_iff fuel ty).mp h).2.symm

end Checker

end JavaGenerics
