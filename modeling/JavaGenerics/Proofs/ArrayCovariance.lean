import JavaGenerics.Proofs.CutShort
import JavaGenerics.Store.Stock

/-!
# Arrays are covariant

Whether one array can be assigned to another is a question about their components.  It is asked one
level further down, though, so the two answers can only be compared if nothing that is asked on the
way depends on anything but how deep it may still go.

* `Checker.Alike` — two checkers come to the same result, or each of them reports its own limit.
* `Checker.alike_of_fuel` — **with the same fuel, checkers that differ in their limit on depth
  answer alike**: each of their programs is the other one cut short where the limit is reported.
* `Checker.assignWithin_array` — the question about the arrays is the one about the components.
* `Checker.answer_assignable_array` — arrays of references are exactly as assignable as their
  components, on every store and in every context.
-/

namespace JavaGenerics

namespace Checker

variable {store : Store} {a b : Limits}

/-! ## Fuel and limits -/

/-- The two checkers come to the same result, or each of them reports its own limit on depth. -/
def Alike {α : Type} (here there : Checker) (r r' : Except DeclError α) : Prop :=
  r = r' ∨ (r = .error here.tooDeep ∧ r' = .error there.tooDeep)

/-- Programs that are each other cut short at the limit answer alike, with or without a cache. -/
lemma alike_of_cutOf {α : Type} {q q' : Query α}
    (h : q.CutOf (· = (Checker.mk store a).tooDeep) q')
    (h' : q'.CutOf (· = (Checker.mk store b).tooDeep) q) :
    Alike ⟨store, a⟩ ⟨store, b⟩ ((Checker.mk store a).answer q) ((Checker.mk store b).answer q') ∧
    (a.useCache = b.useCache → ∀ cache : EdgeCache,
      Alike ⟨store, a⟩ ⟨store, b⟩ ((Checker.mk store a).answerWith cache q).1
        ((Checker.mk store b).answerWith cache q').1) := by
  have hanswer : Alike ⟨store, a⟩ ⟨store, b⟩ ((Checker.mk store a).answer q)
      ((Checker.mk store b).answer q') := by
    rcases h.run_short (Checker.mk store a).edgesFromStore with heq | ⟨e, he, rfl⟩
    · exact Or.inl heq
    · rcases h'.run_short (Checker.mk store b).edgesFromStore with heq' | ⟨e', he', rfl⟩
      · exact Or.inl heq'.symm
      · exact Or.inr ⟨he, he'⟩
  refine ⟨hanswer, fun huse cache => ?_⟩
  cases hcached : a.useCache with
  | false =>
      have hcached' : b.useCache = false := huse ▸ hcached
      simpa only [answerWith, hcached, hcached', Bool.false_eq_true, if_false] using hanswer
  | true =>
      have hcached' : b.useCache = true := huse ▸ hcached
      simp only [answerWith, hcached, hcached', if_true]
      rcases h.answer_eq (Checker.mk store a).edgesFromStore cache with ⟨e, he, rfl⟩ | heq
      · rcases h'.answer_eq (Checker.mk store b).edgesFromStore cache with ⟨e', he', rfl⟩ | heq'
        · exact Or.inr ⟨he, he'⟩
        · exact Or.inl (congrArg Prod.fst heq'.symm)
      · exact Or.inl (congrArg Prod.fst heq)

/-- **What is assignable depends on the fuel alone**: with as much of it, the limit on depth makes
no difference but to the error that reports it. -/
lemma alike_of_fuel (store : Store) (hchain : a.maxVariableChain = b.maxVariableChain)
    (fuel : Nat) (source : Option Ty) (target : Ty) (context : Option Bindings) :
    let here := (Checker.mk store a).assignWithin fuel source target context
    let there := (Checker.mk store b).assignWithin fuel source target context
    Alike ⟨store, a⟩ ⟨store, b⟩ ((Checker.mk store a).answer here)
      ((Checker.mk store b).answer there) ∧
    (a.useCache = b.useCache → ∀ cache : EdgeCache,
      Alike ⟨store, a⟩ ⟨store, b⟩ ((Checker.mk store a).answerWith cache here).1
        ((Checker.mk store b).answerWith cache there).1) :=
  alike_of_cutOf (((milder_of_eq store hchain).decisions le_rfl).2.1 source target context)
    (((milder_of_eq store hchain.symm).decisions le_rfl).2.1 source target context)

/-! ## Arrays -/

variable {checker : Checker} {given wanted : Ty}

/-- Every type takes itself. -/
lemma assignWithin_of_same (hsame : (given == wanted) = true) (fuel : Nat)
    (context : Option Bindings) :
    checker.assignWithin (fuel + 1) (some given) wanted context = pure true := by
  have hsame' : (some given == some wanted) = true := hsame
  simp only [assignWithin, assignStep, if_pos hsame']

/-- Only the rule for arrays says what an array takes but itself. -/
lemma assignWithin_array_of_differ {source : Ty} (hdiffer : ¬ (source == .array wanted) = true)
    (fuel : Nat) (context : Option Bindings) :
    checker.assignWithin (fuel + 1) (some source) (.array wanted) context =
      checker.assignToArray (checker.assignWithin fuel) (some source) wanted context := by
  have hdiffer' : ¬ (some source == some (.array wanted)) = true := hdiffer
  simp only [assignWithin, assignStep, if_neg hdiffer']

/-- **The question about arrays is the question about their components, one level further down**,
unless a component is a wildcard or a primitive.  Arrays are the same type exactly if their
components are, so it makes no difference on which level that is noticed. -/
lemma assignWithin_array (checker : Checker) (hgiven : given.isWildcard = false)
    (hwanted : wanted.isWildcard = false) (hgiven' : checker.isPrimitiveTy given = false)
    (hwanted' : checker.isPrimitiveTy wanted = false) (fuel : Nat) (context : Option Bindings) :
    checker.assignWithin (fuel + 2) (some (.array given)) (.array wanted) context =
      checker.assignWithin (fuel + 1) (some given) wanted context := by
  have hcomponents : (Ty.array given == .array wanted) = (given == wanted) := rfl
  by_cases hsame : (given == wanted) = true
  · rw [assignWithin_of_same hsame, assignWithin_of_same (hcomponents.trans hsame)]
  · rw [assignWithin_array_of_differ (hcomponents ▸ hsame)]
    simp only [assignToArray, assignComponent, hgiven, hwanted, hgiven', hwanted',
      Bool.false_eq_true, if_false, Bool.or_self]

/-- **Arrays of references are exactly as assignable as their components.**  Given one more level to
go down, the question about the arrays has the answer of the question about the components, be it a
result or an error; only that each reports its own limit on depth.  The same holds through a cache,
whatever it has copies of. -/
theorem answer_assignable_array (store : Store) (limits : Limits) {given wanted : Ty}
    (hgiven : given.isWildcard = false) (hwanted : wanted.isWildcard = false)
    (hgiven' : (Checker.mk store limits).isPrimitiveTy given = false)
    (hwanted' : (Checker.mk store limits).isPrimitiveTy wanted = false)
    (context : Option Bindings) :
    let ofComponents : Checker := { store := store, limits := limits }
    let ofArrays : Checker :=
      { store := store, limits := { limits with maxDepth := limits.maxDepth + 1 } }
    let components := ofComponents.assignable (some given) wanted context
    let arrays := ofArrays.assignable (some (.array given)) (.array wanted) context
    Alike ofComponents ofArrays (ofComponents.answer components) (ofArrays.answer arrays) ∧
    ∀ cache : EdgeCache, Alike ofComponents ofArrays (ofComponents.answerWith cache components).1
      (ofArrays.answerWith cache arrays).1 := by
  intro ofComponents ofArrays components arrays
  have harrays : arrays = ofArrays.assignWithin ofComponents.fuel (some given) wanted context :=
    ofArrays.assignWithin_array hgiven hwanted hgiven' hwanted' limits.maxDepth context
  obtain ⟨hanswer, hcached⟩ := alike_of_fuel store (a := limits)
    (b := { limits with maxDepth := limits.maxDepth + 1 }) rfl ofComponents.fuel (some given) wanted
    context
  rw [harrays]
  exact ⟨hanswer, hcached rfl⟩

/-- An `ArrayList<String>` is a `Collection<? extends CharSequence>`, so an `ArrayList<String>[]` is
a `Collection<? extends CharSequence>[]`. -/
theorem arrayLists_alike :
    let given : Ty := .app ⟨29⟩ [.cls ⟨5⟩]
    let wanted : Ty := .app ⟨24⟩ [.extending (.cls ⟨3⟩)]
    let ofComponents : Checker := { store := .collections, limits := { maxDepth := 4 } }
    let ofArrays : Checker := { store := .collections, limits := { maxDepth := 5 } }
    Alike ofComponents ofArrays
      (ofComponents.answer (ofComponents.assignable (some given) wanted none))
      (ofArrays.answer (ofArrays.assignable (some (.array given)) (.array wanted) none)) :=
  (@answer_assignable_array .collections { maxDepth := 4 } (.app ⟨29⟩ [.cls ⟨5⟩])
    (.app ⟨24⟩ [.extending (.cls ⟨3⟩)]) rfl rfl rfl rfl none).1

end Checker

end JavaGenerics
