import JavaGenerics.Application
import JavaGenerics.Erasure
import JavaGenerics.Proofs.ArrayCovariance

/-!
# Erased targets

At run time nothing is left of a target but its class, and an assignment that was allowed must still
be allowed then.  The two questions take different ways, though: arguments are compared after a walk
up the hierarchy, while a class only asks whether it can be reached.

* `Checker.Entails` — whatever the one question is answered, the other one is answered too, and
  holds if the first does; only the limit on depth may come in between.
* `Checker.entails_applied` — **the walk toward a class asks on its way all that the class itself
  would ask**, and with less fuel (`converts_of_walkWithin`).
* `Checker.entails_erased` — the same along the components of arrays and the bounds of variables.
* `Checker.answer_assignable_erasure` — what can be assigned to a class, applied or not, or to an
  array of such, can be assigned to its erasure.
* `Checker.appliedPrimitives_not_erasable` — the exception: a primitive component takes itself only,
  and a primitive applied to no arguments is not that primitive.
-/

namespace JavaGenerics

namespace Ty

/-! ## The same type -/

lemma eq_cls_of_same {ty : Ty} {id : ClassId} (h : (ty == .cls id) = true) : ty = .cls id := by
  replace h : same ty (.cls id) = true := h
  cases ty with
  | cls other => simpa only [same, beq_iff_eq, cls.injEq] using h
  | _ => simp [same] at h

lemma exists_applied_of_same {ty : Ty} {raw : ClassId} {args : List Ty} {owner : Option Ty}
    (h : (ty == .applied raw args owner) = true) :
    ∃ args' owner', ty = .applied raw args' owner' := by
  replace h : same ty (.applied raw args owner) = true := h
  cases ty with
  | applied raw' args' owner' =>
      simp only [same, Bool.and_eq_true, beq_iff_eq] at h
      exact ⟨args', owner', by rw [h.1]⟩
  | _ => simp [same] at h

lemma exists_array_of_same {ty component : Ty} (h : (ty == .array component) = true) :
    ∃ given, ty = .array given ∧ (given == component) = true := by
  replace h : same ty (.array component) = true := h
  cases ty with
  | array given => exact ⟨given, rfl, h⟩
  | _ => simp [same] at h

lemma isWildcard_of_same {a b : Ty} (h : (a == b) = true) (hb : b.isWildcard = false) :
    a.isWildcard = false := by
  replace h : same a b = true := h
  cases a with
  | wildcard upper lower =>
      cases b with
      | wildcard upper' lower' => simp [isWildcard] at hb
      | _ => simp [same] at h
  | _ => rfl

lemma isWildcard_arrayOf {element : Ty} {raw : ClassId} (h : element.rawClass? = some raw) :
    ∀ dims, (arrayOf element dims).isWildcard = false
  | 0 => by
    cases element with
    | wildcard upper lower => simp [rawClass?] at h
    | _ => rfl
  | _ + 1 => rfl

end Ty

namespace Checker

variable {checker : Checker}

/-! ## Answers that imply answers -/

/-- Where the first result is an answer, so is the second, which holds if the first one does; or it
reports the limit on depth. -/
def Entails (checker : Checker) (r r' : Except DeclError Bool) : Prop :=
  ∀ b, r = .ok b → r' = .error checker.tooDeep ∨ ∃ b', r' = .ok b' ∧ (b = true → b' = true)

namespace Entails

lemma refl (r : Except DeclError Bool) : checker.Entails r r :=
  fun b hb => Or.inr ⟨b, hb, id⟩

lemma of_error {e : DeclError} (r : Except DeclError Bool) : checker.Entails (.error e) r := by
  rintro b ⟨⟩

lemma of_true (r : Except DeclError Bool) : checker.Entails r (.ok true) :=
  fun _ _ => Or.inr ⟨true, rfl, fun _ => rfl⟩

lemma of_imp {b b' : Bool} (h : b = true → b' = true) : checker.Entails (.ok b) (.ok b') := by
  rintro _ ⟨⟩
  exact Or.inr ⟨b', rfl, h⟩

/-- What follows from an answer that holds. -/
lemma of_ok_true {r' : Except DeclError Bool} (h : checker.Entails (.ok true) r') :
    r' = .ok true ∨ r' = .error checker.tooDeep := by
  rcases h true rfl with hdeep | ⟨b', hb', htrue⟩
  · exact Or.inr hdeep
  · rw [htrue rfl] at hb'
    exact Or.inl hb'

/-- Some bound is assignable if some bound was: those before it answer too. -/
lemma anyBound {assign assign' : AssignDown} {target target' : Ty}
    {context context' : Option Bindings}
    (h : ∀ bound, checker.Entails (checker.answer (assign (some bound) target context))
      (checker.answer (assign' (some bound) target' context'))) (bounds : List Ty) :
    checker.Entails (checker.answer (Checker.anyBound assign target context bounds))
      (checker.answer (Checker.anyBound assign' target' context' bounds)) := by
  induction bounds with
  | nil => exact .refl _
  | cons bound rest ih =>
      intro b hb
      simp only [Checker.anyBound, answer_bind, bind_eq_ok] at hb
      obtain ⟨fits, hfits, hb⟩ := hb
      simp only [Checker.anyBound, answer_bind]
      rcases h bound fits hfits with hdeep | ⟨fits', hfits', himp⟩
      · exact Or.inl (by rw [hdeep, error_bind])
      rw [hfits', ok_bind]
      cases fits' with
      | true => exact Or.inr ⟨true, rfl, fun _ => rfl⟩
      | false =>
          have hfalse : fits = false := by simpa using himp
          rw [hfalse] at hb
          exact ih b hb

end Entails

/-! ## Classes -/

/-- The class that is the target takes itself without a further question. -/
lemma assignWithin_cls (checker : Checker) (fuel : Nat) (source : Ty) (target : ClassId)
    (context : Option Bindings) :
    checker.assignWithin (fuel + 1) (some source) (.cls target) context =
      checker.assignToClass (checker.assignWithin fuel) (some source) target := by
  by_cases hsame : (source == .cls target) = true
  · rw [assignWithin_of_same hsame, Ty.eq_cls_of_same hsame]
    simp only [assignToClass, classConverts, if_true]
  · have hdiffer : ¬ (some source == some (.cls target)) = true := hsame
    simp only [assignWithin, assignStep, if_neg hdiffer]

/-- A bound through which a walk goes on is assignable to the class that the walk leads to. -/
lemma anyBound_of_walkBounds {walk : WalkDown} {assign assign' : AssignDown} {target : ClassId}
    {map : Bindings} (hassign : ∀ bound b,
      checker.answer (assign (some bound) (.cls target) none) = .ok b →
      checker.answer (assign' (some bound) (.cls target) none) = .ok b) :
    ∀ {bounds : List Ty} {found : Option Bindings},
      checker.answer (walkBounds walk assign target map bounds) = .ok found →
      ∃ b, checker.answer (anyBound assign' (.cls target) none bounds) = .ok b ∧
        (found.isSome = true → b = true)
  | [], found, h => by
    simp only [walkBounds, answer_pure, Except.ok.injEq] at h
    exact ⟨false, rfl, fun hsome => by simp [← h] at hsome⟩
  | bound :: rest, found, h => by
    simp only [walkBounds, answer_bind, bind_eq_ok] at h
    obtain ⟨fits, hfits, h⟩ := h
    simp only [anyBound, answer_bind, hassign bound fits hfits, ok_bind]
    cases fits with
    | true => exact ⟨true, rfl, fun _ => rfl⟩
    | false => exact anyBound_of_walkBounds hassign h

/-- An answer of a question about assignability stays with more fuel. -/
lemma answer_assignWithin_mono {fuel fuel' : Nat} (hfuel : fuel ≤ fuel') {source : Option Ty}
    {target : Ty} {context : Option Bindings} {b : Bool}
    (h : checker.answer (checker.assignWithin fuel source target context) = .ok b) :
    checker.answer (checker.assignWithin fuel' source target context) = .ok b :=
  (((milder_of_eq checker.store (Eq.refl checker.limits.maxVariableChain)).decisions
    hfuel).2.1 source target context).run_eq_ok h

/-- **A walk that comes to an end has asked what the class at its end would ask**, and arrives only
if that was answered with yes. -/
lemma converts_of_walkWithin {fuel : Nat} {source : Ty} (hwildcard : source.isWildcard = false)
    (harray : source.isArray = false) {target : ClassId} {map : Bindings} {found : Option Bindings}
    (h : checker.answer (checker.walkWithin fuel source target map) = .ok found) :
    ∃ b, checker.answer (checker.assignToClass (checker.assignWithin fuel) (some source) target) =
      .ok b ∧ (found.isSome = true → b = true) := by
  have hconverts {id : ClassId} {next : Query (Option Bindings)}
      (h : checker.answer (checker.classConverts id target >>= fun converts =>
        if converts then next else pure none) = .ok found) :
      ∃ b, checker.answer (checker.classConverts id target) = .ok b ∧
        (found.isSome = true → b = true) := by
    simp only [answer_bind, bind_eq_ok] at h
    obtain ⟨converts, hconverts, h⟩ := h
    refine ⟨converts, hconverts, fun hsome => ?_⟩
    cases converts with
    | true => rfl
    | false =>
        obtain rfl : none = found := by simpa using h
        simp at hsome
  cases fuel with
  | zero => simp [walkWithin] at h
  | succ fuel =>
      cases source with
      | cls id => exact hconverts h
      | applied raw args owner => exact hconverts h
      | var v =>
          simp only [walkWithin, walkStep, answer_bind, answer_lift, bind_eq_ok] at h
          obtain ⟨bounds, hbounds, h⟩ := h
          simp only [assignToClass, answer_bind, answer_lift, hbounds, ok_bind]
          exact anyBound_of_walkBounds
            (fun _ _ => answer_assignWithin_mono (Nat.le_succ fuel)) h
      | wildcard upper lower => simp [Ty.isWildcard] at hwildcard
      | array component => simp [Ty.isArray] at harray

/-- **What an applied class takes is taken by the class.** -/
lemma entails_applied (fuel : Nat) {source : Ty} (hwildcard : source.isWildcard = false)
    (raw : ClassId) (args : List Ty) (owner : Option Ty) (context : Option Bindings) :
    checker.Entails
      (checker.answer (checker.assignWithin (fuel + 1) (some source) (.applied raw args owner)
        context))
      (checker.answer (checker.assignWithin (fuel + 1) (some source) (.cls raw) none)) := by
  rw [assignWithin_cls]
  by_cases hsame : (source == .applied raw args owner) = true
  · -- An instance of the class itself, which is reached in no step.
    obtain ⟨args', owner', rfl⟩ := Ty.exists_applied_of_same hsame
    simpa only [assignToClass, classConverts, if_true] using .of_true _
  have hdiffer : ¬ (some source == some (.applied raw args owner)) = true := hsame
  simp only [assignWithin, assignStep, if_neg hdiffer]
  by_cases harray : source.isArray = true
  · cases source with
    | array component =>
        simp only [assignToApplied, assignToClass]
        split
        · exact .of_imp (by simp)
        · exact .of_imp (by simp)
    | _ => simp [Ty.isArray] at harray
  have hnoArray : source.isArray = false := by simpa using harray
  rw [assignToApplied_eq _ _ hnoArray]
  intro b hb
  simp only [compareInstances, answer_bind, bind_eq_ok] at hb
  obtain ⟨found, hfound, hb⟩ := hb
  obtain ⟨b', hb', himp⟩ := converts_of_walkWithin hwildcard hnoArray hfound
  refine Or.inr ⟨b', hb', fun htrue => himp ?_⟩
  cases found with
  | some sourceMap => rfl
  | none => simp [htrue] at hb

/-! ## Arrays -/

section Arrays

variable {element : Ty} {raw : ClassId} (helement : element.rawClass? = some raw)
  (hprimitive : element.isApplied = true → checker.isPrimitive raw = false)

include helement hprimitive

/-- The component of an array is a primitive exactly if that of its erasure is. -/
lemma isPrimitiveTy_arrayOf : ∀ dims, checker.isPrimitiveTy (.arrayOf element dims) =
    checker.isPrimitiveTy (.arrayOf (.cls raw) dims)
  | 0 => by
    cases element with
    | cls id =>
        obtain rfl : id = raw := by simpa [Ty.rawClass?] using helement
        rfl
    | applied raw' args owner => exact (hprimitive rfl).symm
    | _ => simp [Ty.rawClass?] at helement
  | _ + 1 => rfl

/-- Where a primitive is met, what is the same as a component is the same as its erasure. -/
lemma same_erased_of_primitive {given : Ty} {dims : Nat}
    (hprim : (checker.isPrimitiveTy given || checker.isPrimitiveTy (.arrayOf element dims)) = true)
    (hsame : (given == .arrayOf element dims) = true) :
    (given == .arrayOf (.cls raw) dims) = true := by
  cases element with
  | cls id =>
      obtain rfl : id = raw := by simpa [Ty.rawClass?] using helement
      exact hsame
  | applied raw' args owner =>
      cases dims with
      | zero =>
          obtain ⟨args', owner', rfl⟩ := Ty.exists_applied_of_same hsame
          simp [isPrimitiveTy, Ty.arrayOf] at hprim
      | succ dims =>
          obtain ⟨component, rfl, -⟩ := Ty.exists_array_of_same hsame
          simp [isPrimitiveTy, Ty.arrayOf] at hprim
  | _ => simp [Ty.rawClass?] at helement

/-- Components are compared with those of the erasure. -/
lemma entails_assignComponent {assign : AssignDown} {dims : Nat}
    {context : Option Bindings} (given : Ty) (hassign : given.isWildcard = false →
      checker.Entails (checker.answer (assign (some given) (.arrayOf element dims) context))
        (checker.answer (assign (some given) (.arrayOf (.cls raw) dims) none))) :
    checker.Entails
      (checker.answer (checker.assignComponent assign given (.arrayOf element dims) context))
      (checker.answer (checker.assignComponent assign given (.arrayOf (.cls raw) dims) none)) := by
  have hwanted := Ty.isWildcard_arrayOf helement dims
  have herased := @Ty.isWildcard_arrayOf (.cls raw) raw rfl dims
  cases hgiven : given.isWildcard with
  | true =>
      simp only [assignComponent, hgiven, if_true]
      exact .of_error _
  | false =>
      simp only [assignComponent, hgiven, hwanted, herased, Bool.false_eq_true, if_false,
        ← isPrimitiveTy_arrayOf helement hprimitive dims]
      split
      next hprim => exact .of_imp (same_erased_of_primitive helement hprimitive hprim)
      next => exact hassign hgiven

/-- So is whatever is bounded by arrays. -/
lemma entails_assignToArray {assign : AssignDown} {dims : Nat} {context : Option Bindings}
    (hcomponent : ∀ given : Ty, given.isWildcard = false →
      checker.Entails (checker.answer (assign (some given) (.arrayOf element dims) context))
        (checker.answer (assign (some given) (.arrayOf (.cls raw) dims) none)))
    (hbound : ∀ bound,
      checker.Entails (checker.answer (assign (some bound) (.arrayOf element (dims + 1)) none))
        (checker.answer (assign (some bound) (.arrayOf (.cls raw) (dims + 1)) none)))
    (source : Ty) :
    checker.Entails
      (checker.answer (checker.assignToArray assign (some source) (.arrayOf element dims) context))
      (checker.answer
        (checker.assignToArray assign (some source) (.arrayOf (.cls raw) dims) none)) := by
  cases source with
  | cls id => exact .refl _
  | applied raw' args owner => exact .refl _
  | array given => exact entails_assignComponent helement hprimitive given (hcomponent given)
  | wildcard upper lower => exact .anyBound hbound _
  | var v =>
      simp only [assignToArray, answer_bind, answer_lift]
      cases checker.varBounds v with
      | ok bounds => exact .anyBound hbound bounds
      | error e => exact .of_error _

/-- A component that is the same as the one of the target is compared with that of the erasure. -/
lemma entails_sameComponent {assign : AssignDown} {given : Ty} {dims : Nat}
    (hsame : (given == .arrayOf element dims) = true) (hassign : checker.Entails (.ok true)
      (checker.answer (assign (some given) (.arrayOf (.cls raw) dims) none))) :
    checker.Entails (.ok true)
      (checker.answer (checker.assignComponent assign given (.arrayOf (.cls raw) dims) none)) := by
  have hgiven := Ty.isWildcard_of_same hsame (Ty.isWildcard_arrayOf helement dims)
  have herased := @Ty.isWildcard_arrayOf (.cls raw) raw rfl dims
  simp only [assignComponent, hgiven, herased, Bool.false_eq_true, if_false,
    ← isPrimitiveTy_arrayOf helement hprimitive dims]
  split
  next hprim =>
    rw [same_erased_of_primitive helement hprimitive hprim hsame]
    exact .of_true _
  next => exact hassign

end Arrays

/-- **What is assignable to a class, applied or not, or to an array of such, is assignable to its
erasure**, for every fuel.  Below an array wildcards may come up as sources, for a variable may be
bounded by them; they are no sources for a class. -/
theorem entails_erased {element : Ty} {raw : ClassId} (helement : element.rawClass? = some raw)
    {fuel dims : Nat} (hprimitive : element.isApplied = true → 0 < dims →
      checker.isPrimitive raw = false) {source : Ty}
    (hsource : source.isWildcard = false ∨ 0 < dims) (context : Option Bindings) :
    checker.Entails
      (checker.answer (checker.assignWithin fuel (some source) (.arrayOf element dims) context))
      (checker.answer
        (checker.assignWithin fuel (some source) (.arrayOf (.cls raw) dims) none)) := by
  induction fuel generalizing dims source context with
  | zero => simpa only [assignWithin] using .of_error _
  | succ fuel ih =>
      cases dims with
      | zero =>
          have hwildcard : source.isWildcard = false := by simpa using hsource
          cases element with
          | cls id =>
              obtain rfl : id = raw := by simpa [Ty.rawClass?] using helement
              simp only [Ty.arrayOf, assignWithin_cls]
              exact .refl _
          | applied raw' args owner =>
              obtain rfl : raw' = raw := by simpa [Ty.rawClass?] using helement
              exact entails_applied fuel hwildcard raw' args owner context
          | _ => simp [Ty.rawClass?] at helement
      | succ dims =>
          have hprim : element.isApplied = true → checker.isPrimitive raw = false :=
            fun happlied => hprimitive happlied (Nat.succ_pos dims)
          by_cases herased : (source == .array (.arrayOf (.cls raw) dims)) = true
          · simpa only [Ty.arrayOf, assignWithin_of_same herased] using .of_true _
          rw [Ty.arrayOf, Ty.arrayOf, assignWithin_array_of_differ herased]
          by_cases hsame : (source == .array (.arrayOf element dims)) = true
          · -- The target itself, the components of which are the same further down.
            obtain ⟨given, rfl, hgiven⟩ := Ty.exists_array_of_same hsame
            rw [assignWithin_of_same hsame]
            refine entails_sameComponent helement hprim hgiven ?_
            cases fuel with
            | zero => exact fun _ _ => Or.inl rfl
            | succ fuel =>
                have hwildcard :=
                  Ty.isWildcard_of_same hgiven (Ty.isWildcard_arrayOf helement dims)
                have hgiven' := @ih dims (fun happlied _ => hprim happlied) given (.inl hwildcard)
                simpa only [assignWithin_of_same hgiven, answer_pure] using hgiven' context
          rw [assignWithin_array_of_differ hsame]
          exact entails_assignToArray helement hprim
            (fun given hgiven => ih (fun happlied _ => hprim happlied) (.inl hgiven) context)
            (fun bound => ih hprimitive (.inr (Nat.succ_pos dims)) none) source

/-! ## Erasing -/

/-- Seen from nowhere, what is erased is the innermost component. -/
lemma of_eraseWithin {element erased : Ty} {raw : ClassId} (helement : element.rawClass? = some raw)
    {fuel dims : Nat}
    (h : checker.answer (checker.eraseWithin none fuel (.arrayOf element dims)) =
      .ok (some erased)) : erased = .arrayOf (.cls raw) dims := by
  induction dims generalizing fuel erased with
  | zero =>
      cases fuel with
      | zero => simp [eraseWithin] at h
      | succ fuel =>
          cases element with
          | cls id =>
              obtain rfl : id = raw := by simpa [Ty.rawClass?] using helement
              simpa [Ty.arrayOf, eraseWithin] using h.symm
          | applied raw' args owner =>
              obtain rfl : raw' = raw := by simpa [Ty.rawClass?] using helement
              simpa [Ty.arrayOf, eraseWithin] using h.symm
          | _ => simp [Ty.rawClass?] at helement
  | succ dims ih =>
      cases fuel with
      | zero => simp [eraseWithin] at h
      | succ fuel =>
          simp only [Ty.arrayOf, eraseWithin, answer_bind, bind_eq_ok] at h
          obtain ⟨component?, hcomponent, h⟩ := h
          cases component? with
          | none => simp at h
          | some component =>
              rw [ih hcomponent] at h
              simpa [Ty.arrayOf] using h.symm

/-- **What is assignable to a class, applied or not, or to an array of such, is assignable to its
erasure**, on every store and out of every context; only the limit on depth may be met.  The
innermost component of the array, where it is applied, must not be a primitive. -/
theorem answer_assignable_erasure (checker : Checker) {source element : Ty} {raw : ClassId}
    {dims : Nat} {erased : Ty} {context : Option Bindings} (hsource : source.isWildcard = false)
    (helement : element.rawClass? = some raw)
    (hprimitive : element.isApplied = true → 0 < dims → checker.isPrimitive raw = false)
    (hassign : checker.answer
      (checker.assignable (some source) (.arrayOf element dims) context) = .ok true)
    (herase : checker.answer (checker.erase (.arrayOf element dims) none) = .ok (some erased)) :
    checker.answer (checker.assignable (some source) erased none) = .ok true ∨
      checker.answer (checker.assignable (some source) erased none) = .error checker.tooDeep := by
  have hentails : checker.Entails (.ok true)
      (checker.answer (checker.assignable (some source) (.arrayOf (.cls raw) dims) none)) := by
    rw [← hassign]
    exact entails_erased helement hprimitive (.inl hsource) context
  rw [of_eraseWithin helement herase]
  exact hentails.of_ok_true

/-- An `ArrayList<String>[]` is a `Collection<? extends CharSequence>[]`, and a `Collection[]`. -/
theorem arrayLists_to_collections :
    let checker : Checker := { store := .collections }
    let source : Ty := .array (.app ⟨29⟩ [.cls ⟨5⟩])
    checker.answer (checker.assignable (some source) (.array (.cls ⟨24⟩)) none) = .ok true ∨
      checker.answer (checker.assignable (some source) (.array (.cls ⟨24⟩)) none) =
        .error checker.tooDeep :=
  @answer_assignable_erasure { store := .collections } (.array (.app ⟨29⟩ [.cls ⟨5⟩]))
    (.app ⟨24⟩ [.extending (.cls ⟨3⟩)]) ⟨24⟩ 1 (.array (.cls ⟨24⟩)) none rfl rfl (fun _ _ => rfl)
    rfl rfl

/-- `int` takes no arguments, so it can be applied to none.  An array of the result is assignable to
itself, but not to `int[]`, which is its erasure. -/
theorem appliedPrimitives_not_erasable :
    let checker : Checker := { store := .core }
    let int : ClassId := Store.Stock.wellKnown.primitives.get .int
    let source : Ty := .array (.app int [])
    Store.core.applyClass none int [] = .ok (.app int []) ∧
      checker.answer (checker.assignable (some source) source none) = .ok true ∧
      checker.answer (checker.erase source none) = .ok (some (.array (.cls int))) ∧
      checker.answer (checker.assignable (some source) (.array (.cls int)) none) = .ok false :=
  ⟨rfl, rfl, rfl, rfl⟩

end Checker

end JavaGenerics
