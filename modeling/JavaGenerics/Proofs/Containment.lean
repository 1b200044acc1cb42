import JavaGenerics.Proofs.UnderLimits

/-!
# Comparing arguments

Where both sides of an assignment have been seen as instances of one class, their arguments are
compared pair by pair: they are equal, or a wildcard on the right contains the one on the left.
Containment comes down to at most two assignments between bounds.

* `Checker.fitsQuery` — the comparison of one pair, and `Checker.decides_fitsQuery` — **it decides
  `Store.Fits`** of the two without their owners, given that the assignments between the bounds are
  decided.
* `Checker.decides_argumentsFit` — the comparison of all pairs decides that all of them fit.
-/

namespace JavaGenerics

open Relation

namespace Store

variable {store : Store}

/-! ## Bounds of arguments -/

lemma PlainArg.upperOf_plain (hreg : store.Regular) {arg : Ty} (h : store.PlainArg [] arg) :
    store.Plain [] (store.upperOf arg) := by
  cases h with
  | type h => exact h.upperOf_eq.symm ▸ h
  | unbounded => exact hreg.object_plain []
  | extending h => exact h
  | superOf => exact hreg.object_plain []

lemma PlainArg.lowerOf?_plain {arg lower : Ty} (h : store.PlainArg [] arg)
    (hlower : lowerOf? arg = some lower) : store.Plain [] lower := by
  cases h with
  | type h =>
      rw [h.lowerOf?_eq, Option.some.injEq] at hlower
      exact hlower ▸ h
  | unbounded => simp [lowerOf?, Ty.unbounded] at hlower
  | extending => simp [lowerOf?, Ty.extending] at hlower
  | superOf h =>
      simp only [lowerOf?, Ty.superOf, List.head?_cons, Option.some.injEq] at hlower
      exact hlower ▸ h

end Store

lemma Ty.beq_eq_sameAll : ∀ as bs : List Ty, (as == bs) = sameAll as bs
  | [], [] => rfl
  | [], _ :: _ => rfl
  | _ :: _, [] => rfl
  | a :: as, b :: bs => by
    have hhead : (a == b) = same a b := rfl
    rw [List.cons_beq_cons, beq_eq_sameAll as bs, sameAll, hhead]

/-- Passing on a result changes nothing. -/
lemma bind_ite_ok {ε : Type} (r : Except ε Bool) :
    (r >>= fun b => if b = true then .ok true else .ok false) = r := by
  rcases r with e | b
  · rfl
  · cases b <;> rfl

namespace Checker

variable {checker : Checker} {late : Prop}

lemma instantiate_none (ty : Ty) : checker.instantiate none ty = .ok ty := by
  cases ty <;> rfl

lemma instantiate?_none (ty : Option Ty) : checker.instantiate? none ty = .ok ty := by
  cases ty with
  | none => rfl
  | some ty => simp [instantiate?, instantiate_none, Except.map]

/-! ## Containment -/

lemma answer_withinUpper_singleton (assign : AssignDown) (source bound : Ty) :
    checker.answer (checker.withinUpper assign [source] none [bound]) =
      checker.answer (assign (some source) bound none) := by
  simp only [withinUpper, allAssignTo, answer_bind, answer_lift, instantiate_none, ok_bind,
    answer_ite, answer_pure, bind_ite_ok]

lemma answer_withinLower_singleton (assign : AssignDown) (source bound : Option Ty) :
    checker.answer (checker.withinLower assign [source] none [bound]) =
      checker.answer (assignLower assign bound source none) := by
  simp only [withinLower, assignToAllLower, answer_bind, answer_lift, instantiate?_none, ok_bind,
    answer_ite, answer_pure, bind_ite_ok]

/-- The comparison of bounds in which containment ends. -/
def compareBounds (checker : Checker) (assign : AssignDown) (above : List Ty)
    (below : List (Option Ty)) (upper lower : List Ty) : Query Bool := do
  if ← checker.withinUpper assign above none (checker.upperBounds upper) then
    checker.withinLower assign below none (lowerBounds lower)
  else pure false

/-- The comparison of arguments in which assignability to an applied class ends: both sides are seen
as instances of that class. -/
def compareInstances (checker : Checker) (walk : WalkDown) (contain : ContainDown)
    (source target : Ty) (raw : ClassId) (context : Option Bindings) : Query Bool := do
  match ← walk source raw .empty with
  | none => pure false
  | some sourceMap =>
    match ← walk target raw (context.getD .empty) with
    | none => pure false
    | some targetMap =>
      let edges ← Query.edgesOf raw
      checker.argumentsFit contain source target sourceMap targetMap context edges.params

/-- The comparison with what a variable is bound to, in which assignability to a variable ends. -/
def assignToBinding (checker : Checker) (assign : AssignDown) (source : Ty) (target : TypeVarId)
    (map : Bindings) : Query Bool := do
  match ← checker.endOfChain target map with
  | some ended => assign (some source) ended (some map)
  | none => pure false

lemma assignToApplied_eq (walk : WalkDown) (contain : ContainDown) {source : Ty}
    (h : source.isArray = false) (target : Ty) (raw : ClassId) (context : Option Bindings) :
    checker.assignToApplied walk contain (some source) target raw context =
      checker.compareInstances walk contain source target raw context := by
  cases source with
  | array => simp [Ty.isArray] at h
  | _ => rfl

lemma containStep_plain (assign : AssignDown) {given : Ty} (h : given.isWildcard = false)
    (upper lower : List Ty) :
    checker.containStep assign given upper lower none =
      checker.compareBounds assign [given] [some given] upper lower := by
  cases given with
  | wildcard => simp [Ty.isWildcard] at h
  | _ => rfl

lemma containStep_wildcard (assign : AssignDown) {upper' lower' upper lower : List Ty}
    (hne : ¬ (Ty.wildcard upper' lower' == .wildcard upper lower)) :
    checker.containStep assign (.wildcard upper' lower') upper lower none =
      checker.compareBounds assign (checker.upperBounds upper') (lowerBounds lower') upper
        lower := by
  have hsame : Ty.same (.wildcard upper' lower') (.wildcard upper lower) = false :=
    Bool.eq_false_iff.mpr hne
  have hdiffers : (upper' == upper && lower' == lower) = false := by
    rw [Ty.beq_eq_sameAll, Ty.beq_eq_sameAll]
    simpa [Ty.same] using hsame
  simp only [containStep, hdiffers, Bool.false_eq_true, if_false, compareBounds]

/-- Containment in another wildcard comes down to one assignment between upper bounds and, if that
holds, one between lower bounds. -/
lemma answer_containStep (assign : AssignDown) {given : Ty} {upper lower : List Ty}
    (hgiven : checker.store.OwnedArg given)
    (hwanted : checker.store.OwnedArg (.wildcard upper lower))
    (hne : ¬ (given == .wildcard upper lower)) :
    checker.answer (checker.containStep assign given upper lower none) =
      checker.answer
          (assign (some (checker.store.upperOf given))
            (checker.store.upperOf (.wildcard upper lower))
            none) >>= fun within =>
        if within = true then
          checker.answer (assignLower assign lower.head? (Store.lowerOf? given) none)
        else .ok false := by
  have hstep : checker.containStep assign given upper lower none =
      checker.compareBounds assign [checker.store.upperOf given] [Store.lowerOf? given]
        upper lower := by
    cases hgiven with
    | type h => rw [containStep_plain assign h.isWildcard, h.upperOf_eq, h.lowerOf?_eq]
    | unbounded => exact containStep_wildcard assign hne
    | extending => exact containStep_wildcard assign hne
    | superOf => exact containStep_wildcard assign hne
  have hbounds : checker.upperBounds upper = [checker.store.upperOf (.wildcard upper lower)] ∧
      lowerBounds lower = [lower.head?] := by
    cases hwanted with
    | type h => exact absurd h.isWildcard (by simp [Ty.isWildcard])
    | _ => exact ⟨rfl, rfl⟩
  rw [hstep, compareBounds, hbounds.1, hbounds.2]
  simp only [answer_bind, answer_ite, answer_pure, answer_withinUpper_singleton,
    answer_withinLower_singleton]

lemma containWithin_eq (fuel : Nat) (given : Ty) (upper lower : List Ty)
    (context : Option Bindings) : checker.containWithin fuel given upper lower context =
      checker.containStep (checker.assignWithin (fuel - 1)) given upper lower context := by
  cases fuel with
  | zero => simp only [containWithin, Nat.zero_sub, assignWithin]
  | succ fuel => rw [containWithin, Nat.add_sub_cancel]

/-! ## One pair of arguments -/

/-- The comparison of one argument with the one that is wanted. -/
def fitsQuery (contain : ContainDown) (given wanted : Ty) : Query Bool :=
  if given == wanted then pure true
  else
    match wanted with
    | .wildcard upper lower => contain given upper lower none
    | _ => pure false

lemma fitsQuery_wildcard (contain : ContainDown) {given : Ty} {upper lower : List Ty}
    (hne : ¬ (given == .wildcard upper lower)) :
    fitsQuery contain given (.wildcard upper lower) = contain given upper lower none := by
  unfold fitsQuery
  rw [if_neg hne]

lemma fitsQuery_plain (contain : ContainDown) {given wanted : Ty}
    (h : wanted.isWildcard = false) (hne : ¬ (given == wanted)) :
    fitsQuery contain given wanted = pure false := by
  unfold fitsQuery
  rw [if_neg hne]
  cases wanted with
  | wildcard => simp [Ty.isWildcard] at h
  | _ => rfl

/-- **The comparison of one pair decides whether the argument fits**, given that the assignments
between its bounds and those of the wildcard are decided. -/
theorem decides_fitsQuery (checker : Checker) (hreg : checker.store.Regular) {given wanted : Ty}
    (hgiven : checker.store.OwnedArg given) (hwanted : checker.store.OwnedArg wanted)
    (fuel : Nat) (hlate : fuel - 1 = 0 → late)
    (hupper : ∀ bound, wanted = .extending bound → checker.Decides late
      (checker.answer
        (checker.assignWithin (fuel - 1) (some (checker.store.upperOf given)) bound none))
      (checker.store.Sub (checker.store.upperOf given).withoutOwners bound.withoutOwners))
    (hlower : ∀ bound lower, wanted = .superOf bound → Store.lowerOf? given = some lower →
      checker.Decides late
        (checker.answer (checker.assignWithin (fuel - 1) (some bound) lower none))
        (checker.store.Sub bound.withoutOwners lower.withoutOwners)) :
    checker.Decides late
      (checker.answer (fitsQuery (checker.containWithin fuel) given wanted))
      (checker.store.Fits given.withoutOwners wanted.withoutOwners) := by
  by_cases hsame : given == wanted
  · have hfits : checker.store.Fits given.withoutOwners wanted.withoutOwners :=
      Ty.beq_iff.mp hsame ▸ .same
    simpa [fitsQuery, hsame] using Decides.ok (by simp [hfits])
  have hne : given.withoutOwners ≠ wanted.withoutOwners := fun h => hsame (Ty.beq_iff.mpr h)
  have habove := hgiven.upperOf_owned hreg
  have htop := (decides_assignWithin_cls checker hreg habove hreg.object_reference.2
    (fuel - 1)).mono hlate
  -- Where no lower bound is wanted, only the null type is asked to be assignable.
  have hnone : checker.Decides late (checker.answer
      (assignLower (checker.assignWithin (fuel - 1)) none (Store.lowerOf? given) none)) True := by
    cases hbelow : Store.lowerOf? given with
    | none => exact .ok (by simp)
    | some lower =>
        exact ((yields_assignWithin_none (hgiven.lowerOf?_owned hbelow) _).mono hlate).decides
          (by simp)
  cases hwanted with
  | type h =>
      rw [Store.fits_iff_of_plain h.bare, fitsQuery_plain _ h.isWildcard hsame]
      exact .ok (by simp [hne])
  | unbounded =>
      rw [Ty.unbounded, fitsQuery_wildcard _ hsame, containWithin_eq,
        answer_containStep _ hgiven .unbounded hsame]
      refine (htop.and fun _ => hnone).congr ?_
      exact iff_of_true ⟨habove.bare.sub_object, trivial⟩ .any
  | @extending bound h =>
      rw [Ty.extending, fitsQuery_wildcard _ hsame, containWithin_eq,
        answer_containStep _ hgiven (.extending h) hsame]
      refine ((hupper _ rfl).and fun _ => hnone).congr ?_
      rw [and_true, Store.withoutOwners_upperOf]
      exact (Store.fits_extending_iff h.bare).symm
  | @superOf bound h =>
      rw [Ty.superOf, fitsQuery_wildcard _ hsame, containWithin_eq,
        answer_containStep _ hgiven (.superOf h) hsame]
      have hrest : checker.Decides late (checker.answer
          (assignLower (checker.assignWithin (fuel - 1)) (some bound) (Store.lowerOf? given) none))
          (∃ lower, Store.lowerOf? given.withoutOwners = some lower ∧
            checker.store.Sub bound.withoutOwners lower) := by
        rw [Store.lowerOf?_withoutOwners]
        cases hbelow : Store.lowerOf? given with
        | none => exact .ok (by simp)
        | some lower => exact (hlower bound lower rfl hbelow).congr (by simp)
      refine (htop.and fun _ => hrest).congr ?_
      refine (and_iff_right habove.bare.sub_object).trans ?_
      exact (Store.fits_superOf_iff h.bare).symm

/-! ## All pairs of arguments -/

lemma answer_foundArgument_of_get? (checker : Checker) {map : Bindings} {v : TypeVarId} {ty : Ty}
    (hget : map.get? v = some ty) (hvar : ty.var? = none) (subject : Ty) :
    checker.answer (checker.foundArgument v map subject) = .ok (some ty) := by
  simp [foundArgument, checker.follow_of_get? hget hvar]

/-- Arguments without variables pass none on. -/
lemma any_passed_eq_false (v : TypeVarId) (params : List TypeVarId) {args : List Ty}
    (hargs : Ty.varsAll args = []) :
    (params.zip args).any (fun pair => pair.1 == v && pair.2.var? == some v) = false := by
  rw [List.any_eq_false]
  rintro ⟨param, arg⟩ hmem
  simp [(Ty.varsAll_eq_nil.mp hargs arg (List.of_mem_zip hmem).2).var?_eq_none]

/-- A type without variables passes none on, if the classes are known that are looked at. -/
theorem answer_passesThrough (v : TypeVarId) : ∀ ty : Ty, ty.Ground →
    (∀ raw args owner, Ty.applied raw args owner ∈ Ty.instancesFrom ty → checker.store.Knows raw) →
    checker.answer (passesThrough v ty) = .ok false
  | .cls _, _, _ => rfl
  | .var _, _, _ => rfl
  | .wildcard _ _, _, _ => rfl
  | .array _, _, _ => rfl
  | .applied raw args none, hground, hknown => by
    obtain ⟨decl, hdecl⟩ := hknown raw args none (by simp [Ty.instancesFrom])
    have hargs := (Ty.ground_applied.mp hground).1
    simp only [passesThrough, answer_bind, answer_edgesOf, checker.edgesFromStore_of_class hdecl,
      ok_bind, any_passed_eq_false v _ hargs, Bool.false_eq_true, if_false, answer_pure]
  | .applied raw args (some outer), hground, hknown => by
    obtain ⟨decl, hdecl⟩ := hknown raw args (some outer) (by simp [Ty.instancesFrom])
    obtain ⟨hargs, houter⟩ := Ty.ground_applied.mp hground
    simp only [passesThrough, answer_bind, answer_edgesOf, checker.edgesFromStore_of_class hdecl,
      ok_bind, any_passed_eq_false v _ hargs, Bool.false_eq_true, if_false]
    exact answer_passesThrough v outer houter fun raw args owner hmem =>
      hknown raw args owner (List.mem_cons_of_mem _ hmem)

lemma answer_foundArgument_of_unbound {map : Bindings} {v : TypeVarId} {subject : Ty}
    (hget : map.get? v = none) (h : checker.store.Owned subject) :
    checker.answer (checker.foundArgument v map subject) = .ok none := by
  have hfollow : checker.follow v map = .ok .unbound := by
    unfold follow followFrom
    simp [hget]
  simp [foundArgument, hfollow, answer_passesThrough v subject h.ground h.knows_instances]

/-- Where both arguments for the first parameter are found, these are compared first. -/
lemma answer_argumentsFit_found (checker : Checker) (contain : ContainDown) {source target : Ty}
    {sourceMap targetMap : Bindings} {v : TypeVarId} {given wanted : Ty}
    (hwanted : checker.answer (checker.foundArgument v targetMap target) = .ok (some wanted))
    (hgiven : checker.answer (checker.foundArgument v sourceMap source) = .ok (some given))
    {params : List TypeVarId} :
    checker.answer (checker.argumentsFit contain source target sourceMap targetMap none
        (v :: params)) =
      checker.answer (fitsQuery contain given wanted) >>= fun b =>
        if b = true then
          checker.answer
            (checker.argumentsFit contain source target sourceMap targetMap none params)
        else .ok false := by
  simp only [argumentsFit, answer_bind, hwanted, ok_bind, hgiven, fitsQuery]
  by_cases hsame : given == wanted
  · simp [hsame]
  · cases wanted <;> simp [hsame]

/-- Where all arguments that are found are equal, they fit. -/
lemma answer_argumentsFit_same (checker : Checker) (contain : ContainDown) (source target : Ty)
    {sourceMap targetMap : Bindings} (k : Option Bindings) : ∀ params : List TypeVarId,
    (∀ v ∈ params, ∃ given wanted, sourceMap.get? v = some given ∧ given.var? = none ∧
      targetMap.get? v = some wanted ∧ wanted.var? = none ∧ (given == wanted) = true) →
    checker.answer (checker.argumentsFit contain source target sourceMap targetMap k params) =
      .ok true
  | [], _ => rfl
  | v :: params, h => by
    obtain ⟨⟨given, wanted, hgiven, hgivenVar, hwanted, hwantedVar, hsame⟩, hrest⟩ :=
      List.forall_mem_cons.mp h
    have hfound := answer_foundArgument_of_get? checker hwanted hwantedVar target
    have hfound' := answer_foundArgument_of_get? checker hgiven hgivenVar source
    simp only [argumentsFit, answer_bind, hfound, hfound', ok_bind, hsame, if_true]
    exact answer_argumentsFit_same checker contain source target k params hrest

/-- **The comparison of all pairs decides what the single comparisons decide, of all of them.**  A
parameter that stands for nothing on the left is passed over. -/
theorem decides_argumentsFit {contain : ContainDown} {source : Ty} (target : Ty)
    {sourceMap targetMap : Bindings} (hsource : checker.store.Owned source)
    (P : Ty → Ty → Prop) : ∀ params : List TypeVarId,
      (∀ v ∈ params, ∃ wanted, targetMap.get? v = some wanted ∧ wanted.Ground) →
      (∀ v ∈ params, ∀ given, sourceMap.get? v = some given → given.Ground) →
      (∀ v ∈ params, ∀ given wanted, sourceMap.get? v = some given →
        targetMap.get? v = some wanted →
        checker.Decides late (checker.answer (fitsQuery contain given wanted)) (P given wanted)) →
      checker.Decides late
        (checker.answer
          (checker.argumentsFit contain source target sourceMap targetMap none params))
        (∀ v ∈ params, ∀ given wanted, sourceMap.get? v = some given →
          targetMap.get? v = some wanted → P given wanted)
  | [], _, _, _ => .ok (by simp)
  | v :: params, hbound, hground, hfits => by
    obtain ⟨wanted, hwanted, hwantedGround⟩ := hbound v (by simp)
    have hrest := decides_argumentsFit target hsource P params
      (fun v hv => hbound v (by simp [hv])) (fun v hv => hground v (by simp [hv]))
      (fun v hv => hfits v (by simp [hv]))
    have htarget := answer_foundArgument_of_get? checker hwanted
      hwantedGround.var?_eq_none target
    cases hgiven : sourceMap.get? v with
    | none =>
        have hunbound := answer_foundArgument_of_unbound hgiven hsource
        simp only [argumentsFit, answer_bind, htarget, ok_bind, hunbound]
        exact hrest.congr (by simp [hgiven])
    | some given =>
        have hfound := answer_foundArgument_of_get? checker hgiven
          (hground v (by simp) given hgiven).var?_eq_none source
        have hone := hfits v (by simp) given wanted hgiven hwanted
        have hboth := hone.and fun _ => hrest
        rw [answer_argumentsFit_found checker contain htarget hfound]
        exact hboth.congr (by simp [hgiven, hwanted])

end Checker

end JavaGenerics
