import JavaGenerics.Store.Stock
import JavaGenerics.Proofs.Chains
import JavaGenerics.Proofs.PassedArguments

/-!
# Two substitutions in a row

Types are often put in twice: a field's type is seen from a generic context, and later the context's
own variables are given.  What comes out can be had at once, from bindings that say of each variable
what the two make of it together.  This is not obvious, because a variable may be bound to another
one: a chain of the first bindings may end where the second take over, and what was put in first is
substituted into by the second, but a single substitution never substitutes into what it puts in.

* `Checker.Composes` — what bindings have to say to do the work of two, and `Checker.compose`, which
  say it.
* `Checker.replaceVar_of_composes` — under them, a variable is replaced by what the two make of it.
  A chain that runs out under both is followed once more, for one step.
* `Checker.substitute_composed` — **two substitutions in a row are one**, if the second one puts in
  types that are no variables.
-/

namespace JavaGenerics

namespace Ty

mutual

/-- What is put in for a variable is nested no more deeply than what comes out. -/
theorem nesting_le_of_mem_vars {σ : TypeVarId → Option Ty} {v : TypeVarId} :
    ∀ ty : Ty, v ∈ ty.vars → ((σ v).getD (.var v)).nesting ≤ (subst σ ty).nesting
  | .cls _, h => by simp [vars] at h
  | .applied _ args owner, h => by
    rw [subst, nesting]
    rcases List.mem_append.mp h with h | h
    · exact (nesting_le_of_mem_varsAll args h).le.trans (Nat.le_max_left _ _)
    · exact (nesting_le_of_mem_varsOwner owner h).le.trans (Nat.le_max_right _ _)
  | .var w, h => by
    obtain rfl : v = w := List.mem_singleton.mp h
    exact Nat.le_refl _
  | .wildcard upper lower, h => by
    rw [subst, nesting]
    rcases List.mem_append.mp h with h | h
    · exact (nesting_le_of_mem_varsAll upper h).le.trans (Nat.le_max_left _ _)
    · exact (nesting_le_of_mem_varsAll lower h).le.trans (Nat.le_max_right _ _)
  | .array component, h => by
    rw [subst, nesting]
    exact (nesting_le_of_mem_vars component h).trans (Nat.le_succ _)

theorem nesting_le_of_mem_varsAll {σ : TypeVarId → Option Ty} {v : TypeVarId} :
    ∀ types : List Ty, v ∈ varsAll types →
      ((σ v).getD (.var v)).nesting < nestingAll (substAll σ types)
  | [], h => by simp [varsAll] at h
  | ty :: rest, h => by
    rw [substAll, nestingAll]
    rcases List.mem_append.mp h with h | h
    · exact (Nat.lt_succ_of_le (nesting_le_of_mem_vars ty h)).trans_le (Nat.le_max_left _ _)
    · exact (nesting_le_of_mem_varsAll rest h).trans_le (Nat.le_max_right _ _)

theorem nesting_le_of_mem_varsOwner {σ : TypeVarId → Option Ty} {v : TypeVarId} :
    ∀ owner : Option Ty, v ∈ varsOwner owner →
      ((σ v).getD (.var v)).nesting < nestingOwner (substOwner σ owner)
  | none, h => by simp [varsOwner] at h
  | some owner, h => Nat.lt_succ_of_le (nesting_le_of_mem_vars owner h)

end

/-- Only a variable can become a variable. -/
lemma var?_subst {σ : TypeVarId → Option Ty} {ty : Ty} (h : ty.var? = none) :
    (subst σ ty).var? = none := by
  cases ty with
  | var v => simp [var?] at h
  | _ => rfl

end Ty

namespace Bindings

/-- Binds each of the variables for which there is a value. -/
def tabulate (value : TypeVarId → Option Ty) : List TypeVarId → Bindings
  | [] => .empty
  | v :: vars =>
    match value v with
    | some ty => (tabulate value vars).bind v ty
    | none => tabulate value vars

lemma get?_tabulate (value : TypeVarId → Option Ty) (v : TypeVarId) : ∀ vars : List TypeVarId,
    (tabulate value vars).get? v = if v ∈ vars then value v else none
  | [] => rfl
  | w :: vars => by
    have ih := get?_tabulate value v vars
    by_cases hvw : v = w
    · subst hvw
      cases hvalue : value v <;> simp [tabulate, hvalue, get?_bind, ih]
    · cases hvalue : value w <;> simp [tabulate, hvalue, get?_bind, ih, hvw]

end Bindings

namespace Checker

variable {checker : Checker}

/-! ## Bindings that do the work of two -/

/-- What bindings have to say to do the work of two others in a type.  A variable of the type that
the first ones bind has what it becomes by both in a row; a variable that they do not bind has what
the second ones have for it; and nothing else is bound. -/
structure Composes (checker : Checker) (ty : Ty) (first second both : Bindings) : Prop where
  bound : ∀ v ∈ ty.vars, first.get? v ≠ none → ∃ once twice,
    checker.substitute (.var v) first = .ok once ∧ checker.substitute once second = .ok twice ∧
      both.get? v = some twice
  unbound : ∀ v, first.get? v = none → both.get? v = second.get? v
  absent : ∀ v, first.get? v ≠ none → v ∉ ty.vars → both.get? v = none

/-- What bindings that do the work of two have for a variable. -/
def composedAt (checker : Checker) (ty : Ty) (first second : Bindings) (v : TypeVarId) :
    Option Ty :=
  if first.get? v = none then second.get? v
  else if v ∈ ty.vars then
    (do checker.substitute (← checker.substitute (.var v) first) second).toOption
  else none

/-- Bindings that do the work of two in a type. -/
def compose (checker : Checker) (ty : Ty) (first second : Bindings) : Bindings :=
  .tabulate (checker.composedAt ty first second) (ty.vars ++ second.entries.map Prod.fst)

lemma get?_compose (ty : Ty) (first second : Bindings) (v : TypeVarId) :
    (checker.compose ty first second).get? v = checker.composedAt ty first second v := by
  rw [compose, Bindings.get?_tabulate]
  split
  · rfl
  · rename_i hout
    have hty : v ∉ ty.vars := fun hv => hout (List.mem_append_left _ hv)
    have hsecond : second.get? v = none := by
      rw [Bindings.get?, List.lookup_eq_none_iff]
      intro entry hentry
      have hne : v ≠ entry.1 := fun heq =>
        hout (List.mem_append_right _ (heq ▸ List.mem_map_of_mem hentry))
      exact bne_iff_ne.mpr hne
    simp [composedAt, hsecond, hty]

lemma substitute_var (map : Bindings) (v : TypeVarId) :
    checker.substitute (.var v) map = checker.replaceVar v map := by
  rw [substitute, fuel, substWithin]

/-- A variable that is bound to no variable is replaced in one step. -/
lemma replaceVar_eq_getD {map : Bindings} {v : TypeVarId}
    (h : ∀ value, map.get? v = some value → value.var? = none) :
    checker.replaceVar v map = .ok ((map.get? v).getD (.var v)) := by
  cases hget : map.get? v with
  | none => exact checker.replaceVar_of_none hget
  | some value => exact checker.replaceVar_of_get? hget (h value hget)

/-- Under a limit of no steps, no variable is replaced by another one. -/
lemma chain_pos_of_replaceVar {map : Bindings} {v last : TypeVarId} (hbound : map.get? v ≠ none)
    (h : checker.replaceVar v map = .ok (.var last)) : 0 < checker.limits.maxVariableChain := by
  obtain ⟨ty, hget⟩ := Option.ne_none_iff_exists'.mp hbound
  cases ty with
  | var next =>
      refine Nat.pos_of_ne_zero fun hzero => ?_
      simp [replaceVar, follow, followFrom, hget, hzero] at h
  | _ =>
      rw [checker.replaceVar_of_get? hget rfl] at h
      cases h

section Values

variable {first second both : Bindings} {ty : Ty}
  (hvalues : ∀ v value, second.get? v = some value → value.var? = none)

include hvalues

/-- Bindings to types that are no variables replace every variable in one step. -/
lemma replaceVar_of_values (v : TypeVarId) :
    checker.replaceVar v second = .ok ((second.get? v).getD (.var v)) :=
  replaceVar_eq_getD (hvalues v)

lemma standIn_of_values (v : TypeVarId) :
    checker.standIn second v = some ((second.get? v).getD (.var v)) :=
  standIn_eq_some_iff.mpr (replaceVar_of_values hvalues v)

/-- A type is substituted into as soon as it is not nested too deeply. -/
lemma substitute_of_values {value : Ty} :
    checker.substitute ty second = .ok value ↔
      ty.nesting < checker.fuel ∧ ty.subst (checker.standIn second) = value := by
  have hreplaces : checker.Replaces second ty.vars :=
    fun v _ => ⟨_, replaceVar_of_values hvalues v⟩
  rw [substitute, substWithin_eq_ok_iff, and_iff_left hreplaces]

/-- What is put in for a variable can be substituted into where the whole can be. -/
lemma exists_twice {once twice : Ty} (hfirst : checker.substitute ty first = .ok once)
    (hsecond : checker.substitute once second = .ok twice) {v : TypeVarId} (hv : v ∈ ty.vars) :
    ∃ value value', checker.replaceVar v first = .ok value ∧
      checker.substitute value second = .ok value' := by
  obtain ⟨⟨-, hreplaces⟩, rfl⟩ := (substWithin_eq_ok_iff _ ty).mp hfirst
  obtain ⟨value, hvalue⟩ := hreplaces v hv
  have hnesting : value.nesting ≤ (ty.subst (checker.standIn first)).nesting := by
    simpa [standIn_eq_some_iff.mpr hvalue] using
      Ty.nesting_le_of_mem_vars (σ := checker.standIn first) ty hv
  exact ⟨value, _, hvalue, (substitute_of_values hvalues).mpr
    ⟨hnesting.trans_lt ((substitute_of_values hvalues).mp hsecond).1, rfl⟩⟩

/-- There are bindings that do the work of two, where both can do theirs. -/
lemma composes_compose {once twice : Ty} (hfirst : checker.substitute ty first = .ok once)
    (hsecond : checker.substitute once second = .ok twice) :
    checker.Composes ty first second (checker.compose ty first second) where
  bound v hv hbound := by
    obtain ⟨value, value', hvalue, hvalue'⟩ := exists_twice hvalues hfirst hsecond hv
    rw [← substitute_var] at hvalue
    refine ⟨value, value', hvalue, hvalue', ?_⟩
    simp [get?_compose, composedAt, hbound, hv, hvalue, hvalue', Except.toOption]
  unbound v hunbound := by simp [get?_compose, composedAt, hunbound]
  absent v hbound hout := by simp [get?_compose, composedAt, hbound, hout]

/-- **A variable is replaced by what the two make of it together.**  Where the chain of the first
bindings runs out at a variable that the second do not bind either, one step leads there. -/
lemma replaceVar_of_composes (h : checker.Composes ty first second both) {v : TypeVarId}
    (hv : v ∈ ty.vars) {value : Ty} (hvalue : checker.replaceVar v first = .ok value) :
    checker.replaceVar v both = .ok (value.subst (checker.standIn second)) := by
  by_cases hfirst : first.get? v = none
  · obtain rfl : .var v = value :=
      Except.ok.inj ((checker.replaceVar_of_none hfirst).symm.trans hvalue)
    have hsame := h.unbound v hfirst
    rw [replaceVar_eq_getD fun value hget => hvalues v value (hsame ▸ hget), Ty.subst,
      standIn_of_values hvalues, hsame, Option.getD_some]
  · obtain ⟨once, twice, honce, htwice, hget⟩ := h.bound v hv hfirst
    rw [substitute_var, hvalue, Except.ok.injEq] at honce
    subst honce
    obtain ⟨-, rfl⟩ := (substitute_of_values hvalues).mp htwice
    obtain ⟨last, -, ⟨hlast, rfl⟩ | ⟨-, hvar⟩⟩ := checker.exists_last_of_replaceVar hvalue
    · have hsame := h.unbound last hlast
      rw [Ty.subst, standIn_of_values hvalues, Option.getD_some] at hget ⊢
      cases hsecond : second.get? last with
      | none =>
          rw [hsecond] at hget hsame
          exact checker.replaceVar_of_loose (chain_pos_of_replaceVar hfirst hvalue) hget hsame
      | some value =>
          rw [hsecond] at hget
          exact checker.replaceVar_of_get? hget (hvalues last value hsecond)
    · exact checker.replaceVar_of_get? hget (Ty.var?_subst hvar)

end Values

/-- **Two substitutions in a row are one.**  If a type is substituted into twice, the second time
with bindings to types that are no variables (so in particular to types that hold none), there are
bindings that do the work of both, and all such bindings do it: what comes out is the same type,
owners included. -/
theorem substitute_composed {ty once twice : Ty} {first second : Bindings}
    (hvalues : ∀ v value, second.get? v = some value → value.var? = none)
    (hfirst : checker.substitute ty first = .ok once)
    (hsecond : checker.substitute once second = .ok twice) :
    (∃ both, checker.Composes ty first second both) ∧
      ∀ both, checker.Composes ty first second both → checker.substitute ty both = .ok twice := by
  refine ⟨⟨_, composes_compose hvalues hfirst hsecond⟩, fun both hboth => ?_⟩
  obtain ⟨-, rfl⟩ := (substitute_of_values hvalues).mp hsecond
  obtain ⟨⟨hnesting, hreplaces⟩, rfl⟩ := (substWithin_eq_ok_iff _ ty).mp hfirst
  have hvar : ∀ v ∈ ty.vars, ∃ value, checker.replaceVar v first = .ok value ∧
      checker.replaceVar v both = .ok (value.subst (checker.standIn second)) := by
    intro v hv
    obtain ⟨value, hvalue⟩ := hreplaces v hv
    exact ⟨value, hvalue, replaceVar_of_composes hvalues hboth hv hvalue⟩
  refine (substWithin_eq_ok_iff _ ty).mpr ⟨⟨hnesting, fun v hv => ?_⟩, ?_⟩
  · obtain ⟨value, -, hboth⟩ := hvar v hv
    exact ⟨_, hboth⟩
  · rw [Ty.subst_subst]
    refine Ty.subst_congr ty fun v hv => ?_
    obtain ⟨value, hvalue, hboth⟩ := hvar v hv
    rw [Ty.andThen_of_eq_some (standIn_eq_some_iff.mpr hvalue), standIn_eq_some_iff.mpr hboth]

/-- An entry of a map from `K` to `V`, in which `K` stands for a variable of another class and `V`
for the lists of a third one's: once that is known to be `String`, it is an entry of lists of
strings. -/
theorem entryOfLists_substituted :
    let checker : Checker := { store := .collections }
    let entryOf (key value : Ty) : Ty :=
      .applied ⟨31⟩ [.array key, value] (some (.app ⟨30⟩ [key, value]))
    let first := Bindings.ofList [(⟨8⟩, .var ⟨3⟩), (⟨9⟩, .app ⟨25⟩ [.var ⟨5⟩])]
    let second := Bindings.empty.bind ⟨5⟩ (.cls ⟨5⟩)
    (∀ v value, second.get? v = some value → value.var? = none) ∧
      checker.substitute (entryOf (.var ⟨8⟩) (.var ⟨9⟩)) first =
        .ok (entryOf (.var ⟨3⟩) (.app ⟨25⟩ [.var ⟨5⟩])) ∧
      checker.substitute (entryOf (.var ⟨3⟩) (.app ⟨25⟩ [.var ⟨5⟩])) second =
        .ok (entryOf (.var ⟨3⟩) (.app ⟨25⟩ [.cls ⟨5⟩])) ∧
      ∃ both, checker.Composes (entryOf (.var ⟨8⟩) (.var ⟨9⟩)) first second both ∧
        checker.substitute (entryOf (.var ⟨8⟩) (.var ⟨9⟩)) both =
          .ok (entryOf (.var ⟨3⟩) (.app ⟨25⟩ [.cls ⟨5⟩])) := by
  intro checker entryOf first second
  have hvalues : ∀ v value, second.get? v = some value → value.var? = none := by
    intro v value hvalue
    rw [Bindings.get?_bind, Bindings.get?_empty] at hvalue
    split at hvalue
    · exact Option.some.inj hvalue ▸ rfl
    · cases hvalue
  have hfirst : checker.substitute (entryOf (.var ⟨8⟩) (.var ⟨9⟩)) first =
      .ok (entryOf (.var ⟨3⟩) (.app ⟨25⟩ [.var ⟨5⟩])) := rfl
  have hsecond : checker.substitute (entryOf (.var ⟨3⟩) (.app ⟨25⟩ [.var ⟨5⟩])) second =
      .ok (entryOf (.var ⟨3⟩) (.app ⟨25⟩ [.cls ⟨5⟩])) := rfl
  obtain ⟨⟨both, hboth⟩, hcomposed⟩ := substitute_composed hvalues hfirst hsecond
  exact ⟨hvalues, hfirst, hsecond, both, hboth, hcomposed both hboth⟩

end Checker

end JavaGenerics
