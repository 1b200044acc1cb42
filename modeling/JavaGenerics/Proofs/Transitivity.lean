import JavaGenerics.Proofs.Assignability
import JavaGenerics.Proofs.BuriedParameters
import JavaGenerics.Proofs.Views

/-!
# Assignability is transitive

If one class type can be assigned to a second one, and that to a third, can the first be assigned to
the third?  Two walks are behind the first two answers, and one that neither of them took behind the
third.  What joins them is that arguments which fit stay in step on the way up
(`Sees.transport`), as long as no wildcard gets inside another type there.

* `Store.ClassTy`, `Store.ClassArg` — plain types and arguments without arrays, and
  `Store.OwnedClassTy` — the same with owners.
* `Store.Exposed` — the middle types: no wildcard stands for a parameter that a supertype uses
  inside another type.
* `Sub.trans_of` — **subtyping is transitive through such types**, by induction on the middle one.
* `assignable_trans` — so assignability is, whatever the limits and whatever the owners.

Each condition is needed; what goes wrong without it stands below the theorem, the three lesser ones
as a `Break` each.
-/

namespace JavaGenerics

open Relation

namespace Ty

/-! ## Types without arrays -/

mutual

/-- Whether no array occurs in a type, owners apart. -/
def arrayFree : Ty → Bool
  | .cls _ => true
  | .applied _ args _ => arrayFreeAll args
  | .var _ => true
  | .wildcard upper lower => arrayFreeAll upper && arrayFreeAll lower
  | .array _ => false

def arrayFreeAll : List Ty → Bool
  | [] => true
  | ty :: rest => arrayFree ty && arrayFreeAll rest

end

lemma arrayFreeAll_iff {types : List Ty} :
    arrayFreeAll types = true ↔ ∀ ty ∈ types, ty.arrayFree = true := by
  induction types with
  | nil => simp [arrayFreeAll]
  | cons ty rest ih => simp [arrayFreeAll, ih]

mutual

/-- What is put in for variables brings arrays along, if it has any. -/
theorem arrayFree_subst {σ : TypeVarId → Option Ty}
    (hσ : ∀ v t, σ v = some t → t.arrayFree = true) :
    ∀ ty : Ty, ty.arrayFree = true → (subst σ ty).arrayFree = true
  | .cls _, _ => rfl
  | .applied _ args _, h => by
    rw [arrayFree] at h
    simpa [subst, arrayFree] using arrayFreeAll_substAll hσ args h
  | .var v, h => by
    cases hv : σ v with
    | none => simp [subst, hv, arrayFree]
    | some t => simpa [subst, hv] using hσ v t hv
  | .wildcard upper lower, h => by
    rw [arrayFree, Bool.and_eq_true] at h
    simp [subst, arrayFree, arrayFreeAll_substAll hσ upper h.1, arrayFreeAll_substAll hσ lower h.2]
  | .array _, h => by simp [arrayFree] at h

theorem arrayFreeAll_substAll {σ : TypeVarId → Option Ty}
    (hσ : ∀ v t, σ v = some t → t.arrayFree = true) :
    ∀ types : List Ty, arrayFreeAll types = true → arrayFreeAll (substAll σ types) = true
  | [], _ => rfl
  | ty :: rest, h => by
    rw [arrayFreeAll, Bool.and_eq_true] at h
    simp [substAll, arrayFreeAll, arrayFree_subst hσ ty h.1, arrayFreeAll_substAll hσ rest h.2]

end

/-! ## Nesting of parts -/

lemma nesting_lt_of_mem_args {ty arg : Ty} (h : arg ∈ ty.args) : arg.nesting < ty.nesting := by
  cases ty with
  | applied raw args owner => exact (nesting_lt_nestingAll h).trans_le (Nat.le_max_left _ _)
  | _ => simp [args] at h

lemma nesting_extending_lt {bound : Ty} : bound.nesting < (extending bound).nesting := by
  simp [extending, nesting, nestingAll]

lemma nesting_superOf_lt {bound : Ty} : bound.nesting < (superOf bound).nesting := by
  simp [superOf, nesting, nestingAll]

end Ty

namespace Store

variable {store : Store}

/-- A class, or a class applied to class types and to wildcards with one bound at most. -/
structure ClassTy (store : Store) (ty : Ty) : Prop where
  plain : store.Plain [] ty
  arrayFree : ty.arrayFree = true

/-- An argument of a class type. -/
structure ClassArg (store : Store) (arg : Ty) : Prop where
  plain : store.PlainArg [] arg
  arrayFree : arg.arrayFree = true

/-- No supertype mentions an array. -/
def ArrayFreeEdges (store : Store) : Prop :=
  ∀ id decl, store.class? id = some decl → ∀ edge ∈ decl.edges.supertypes,
    ∀ arg ∈ edge.args, arg.arrayFree = true

namespace ClassTy

variable {ty : Ty} {id : ClassId}

lemma exists_class (h : store.ClassTy ty) :
    ∃ id, ty.rawClass? = some id ∧ store.Reference id := by
  rcases h.plain.class_or_array with ⟨id, hraw⟩ | harray
  · exact ⟨id, hraw, h.plain.reference hraw⟩
  · have hfree := h.arrayFree
    cases ty with
    | array => simp [Ty.arrayFree] at hfree
    | _ => simp [Ty.isArray] at harray

lemma arg (h : store.ClassTy ty) {arg : Ty} (harg : arg ∈ ty.args) : store.ClassArg arg := by
  refine ⟨h.plain.args_plain arg harg, ?_⟩
  have hfree := h.arrayFree
  cases ty with
  | applied raw args owner => exact Ty.arrayFreeAll_iff.mp hfree arg harg
  | _ => simp [Ty.args] at harg

/-- Without parameters of `Object`, a class type has as many arguments as it should. -/
lemma length_args (h : store.ClassTy ty) (hobject : store.paramsOf store.wellKnown.object = [])
    (hraw : ty.rawClass? = some id) : ty.args.length = (store.paramsOf id).length := by
  rcases h.plain.cases_class hraw with ⟨hfits, -⟩ | ⟨rfl, rfl⟩
  · exact hfits.2.2.2
  · simp [Ty.args, hobject]

end ClassTy

namespace ClassArg

variable {arg lower bound : Ty}

lemma upperOf (hreg : store.Regular) (h : store.ClassArg arg) :
    store.ClassTy (store.upperOf arg) := by
  refine ⟨h.plain.upperOf_plain hreg, ?_⟩
  have hfree := h.arrayFree
  cases h.plain with
  | type hplain => rwa [hplain.upperOf_eq]
  | unbounded => rfl
  | extending => simpa [Store.upperOf, Ty.extending, Ty.arrayFree, Ty.arrayFreeAll] using hfree
  | superOf => rfl

lemma lowerOf? (h : store.ClassArg arg) (hlower : Store.lowerOf? arg = some lower) :
    store.ClassTy lower := by
  refine ⟨h.plain.lowerOf?_plain hlower, ?_⟩
  have hfree := h.arrayFree
  cases h.plain with
  | type hplain =>
      rw [hplain.lowerOf?_eq, Option.some.injEq] at hlower
      exact hlower ▸ hfree
  | unbounded => simp [Store.lowerOf?, Ty.unbounded] at hlower
  | extending => simp [Store.lowerOf?, Ty.extending] at hlower
  | superOf =>
      simp only [Store.lowerOf?, Ty.superOf, List.head?_cons, Option.some.injEq] at hlower
      simpa [Ty.superOf, Ty.arrayFree, Ty.arrayFreeAll, hlower] using hfree

end ClassArg

/-- What a class type is seen with has no arrays. -/
lemma Sees.arrayFree (harrays : store.ArrayFreeEdges) {id target : ClassId} {args found : List Ty}
    (hargs : ∀ arg ∈ args, arg.arrayFree = true) (h : store.Sees id args target found) :
    ∀ arg ∈ found, arg.arrayFree = true := by
  induction h with
  | self => exact hargs
  | step _ hdecl hedge _ ih =>
      intro arg harg
      obtain ⟨written, hwritten, rfl⟩ := List.mem_map.mp harg
      exact Ty.arrayFree_subst (fun v t hv => ih t (mem_of_assigning hv).2) written
        (harrays _ _ hdecl _ hedge written hwritten)

/-! ## Middle types -/

/-- In the type, no wildcard stands for a parameter that a supertype uses inside another type. -/
inductive Exposed (store : Store) : Ty → Prop
  | cls {id : ClassId} : Exposed store (.cls id)
  | app {raw : ClassId} {args : List Ty} (hargs : ∀ arg ∈ args, Exposed store arg)
      (hwildcards : ∀ v arg, store.assigning raw args v = some arg → arg.isWildcard = true →
        ¬ store.Buries raw v) : Exposed store (.app raw args)
  | unbounded : Exposed store .unbounded
  | extending {bound : Ty} (h : Exposed store bound) : Exposed store (.extending bound)
  | superOf {bound : Ty} (h : Exposed store bound) : Exposed store (.superOf bound)

lemma Exposed.arg {ty arg : Ty} (h : store.Exposed ty) (harg : arg ∈ ty.args) :
    store.Exposed arg := by
  cases h with
  | app hargs => exact hargs arg harg
  | _ => simp [Ty.args, Ty.unbounded, Ty.extending, Ty.superOf] at harg

lemma Exposed.not_buries {ty arg : Ty} {id : ClassId} {v : TypeVarId} (h : store.Exposed ty)
    (hraw : ty.rawClass? = some id) (harg : store.assigning id ty.args v = some arg)
    (hwildcard : arg.isWildcard = true) : ¬ store.Buries id v := by
  cases h with
  | cls => exact absurd (mem_of_assigning harg).2 (by simp [Ty.args])
  | app _ hwildcards =>
      rw [Ty.app, Ty.rawClass?, Option.some.injEq] at hraw
      subst hraw
      exact hwildcards v arg harg hwildcard
  | _ => simp [Ty.rawClass?, Ty.unbounded, Ty.extending, Ty.superOf] at hraw

lemma Exposed.bound_of_extending {bound : Ty} (h : store.Exposed (.extending bound)) :
    store.Exposed bound := by
  cases h with
  | extending h => exact h

lemma Exposed.bound_of_superOf {bound : Ty} (h : store.Exposed (.superOf bound)) :
    store.Exposed bound := by
  cases h with
  | superOf h => exact h

/-! ## Below and above -/

lemma Below.trans (hreg : store.Regular) {id middle target : ClassId}
    (h : store.Below id middle) (h' : store.Below middle target) : store.Below id target := by
  rcases h' with rfl | hobject | hpath
  · exact h
  · exact Or.inr (Or.inl hobject)
  · rcases h with rfl | rfl | h
    · exact Or.inr (Or.inr hpath)
    · exact Or.inr (Or.inl (hreg.eq_object (Or.inr (Or.inr hpath))))
    · exact Or.inr (Or.inr (h.trans hpath))

/-- What is below a class other than `Object` sees it on the way there. -/
lemma Regular.exists_ascent_sees (hreg : store.Regular) {id target : ClassId} (args : List Ty)
    (hid : store.Knows id) (htarget : store.wellKnown.isPrimitive target = false)
    (hbelow : store.Below id target) (hne : target ≠ store.wellKnown.object) :
    ∃ levels, store.Ascent target id args levels ∧
      store.Sees id args target (argsAt target levels) := by
  obtain ⟨levels, hlevels, -⟩ :=
    hreg.exists_ascent htarget _ args (Nat.lt_succ_self _) hid hbelow
  have hsees := hreg.toWalkable.argsAt_sees hlevels htarget hid (fun heq => absurd heq hne)
    (hbelow.reflTransGen hne)
  exact ⟨levels, hlevels, hsees.2⟩

namespace ClassTy

variable {source target : Ty} {id targetId : ClassId}

lemma below_of_sub (htarget : store.ClassTy target) (hraw : source.rawClass? = some id)
    (hraw' : target.rawClass? = some targetId) (h : store.Sub source target) :
    store.Below id targetId := by
  cases htarget.plain with
  | cls =>
      rw [Ty.rawClass?, Option.some.injEq] at hraw'
      exact hraw' ▸ (sub_cls_iff hraw).mp h
  | app =>
      rw [Ty.app, Ty.rawClass?, Option.some.injEq] at hraw'
      exact hraw' ▸ h.below_of_app hraw
  | var hv => exact absurd hv (by simp)
  | array => simp [Ty.rawClass?] at hraw'
  | primitives => simp [Ty.rawClass?] at hraw'

/-- The arguments of a subtype, as seen from the class of the other type, fit its arguments. -/
lemma fits_of_sub (htarget : store.ClassTy target) (hraw : source.rawClass? = some id)
    (hraw' : target.rawClass? = some targetId) {levels : List (ClassId × List Ty)}
    (hlevels : store.Ascent targetId id source.args levels) (h : store.Sub source target) :
    ∀ pair ∈ (argsAt targetId levels).zip target.args, store.Fits pair.1 pair.2 := by
  have hbelow := htarget.below_of_sub hraw hraw' h
  cases htarget.plain with
  | app =>
      rw [Ty.app, Ty.rawClass?, Option.some.injEq] at hraw'
      subst hraw'
      exact (sub_app_iff hraw hbelow hlevels).mp h
  | _ => simp [Ty.args]

end ClassTy

/-- Whatever `Object` is a subtype of takes every class type. -/
lemma Sub.of_object (hreg : store.Regular) (hobject : store.paramsOf store.wellKnown.object = [])
    {source target : Ty} (hsource : store.ClassTy source) (htarget : store.ClassTy target)
    (h : store.Sub store.objectTy target) : store.Sub source target := by
  obtain ⟨id, hraw, hid⟩ := hsource.exists_class
  obtain ⟨targetId, hraw', hprim⟩ := htarget.exists_class
  obtain rfl := hreg.eq_object (htarget.below_of_sub rfl hraw' h)
  have hbelow : store.Below id store.wellKnown.object := Or.inr (Or.inl rfl)
  have hnone := htarget.length_args hobject hraw'
  rw [hobject, List.length_nil, List.length_eq_zero_iff] at hnone
  obtain ⟨levels, hlevels, -⟩ :=
    hreg.exists_ascent hprim.2 _ source.args (Nat.lt_succ_self _) hid.1 hbelow
  cases htarget.plain with
  | cls =>
      rw [Ty.rawClass?, Option.some.injEq] at hraw'
      exact hraw' ▸ .toClass hraw hbelow
  | @app _ _ args =>
      rw [Ty.app, Ty.rawClass?, Option.some.injEq] at hraw'
      subst hraw'
      obtain rfl : args = [] := hnone
      exact .toApplied hraw hbelow hlevels (by simp)
  | var hv => exact absurd hv (by simp)
  | array => simp [Ty.rawClass?] at hraw'
  | primitives => simp [Ty.rawClass?] at hraw'

/-! ## The rules are transitive -/

/-- Subtyping is transitive through `middle`. -/
def TransThrough (store : Store) (middle : Ty) : Prop :=
  ∀ source target, store.ClassTy source → store.ClassTy target → store.Sub source middle →
    store.Sub middle target → store.Sub source target

/-- **Fitting is transitive**, if subtyping is so through the bound of the argument in the
middle. -/
theorem Fits.trans_of (hreg : store.Regular) (hobject : store.paramsOf store.wellKnown.object = [])
    {given middle wanted : Ty} (hgiven : store.ClassArg given) (hwanted : store.ClassArg wanted)
    (hbound : ∀ bound, middle = .extending bound ∨ middle = .superOf bound →
      store.TransThrough bound)
    (h : store.Fits given middle) (h' : store.Fits middle wanted) : store.Fits given wanted := by
  have hupper := hgiven.upperOf hreg
  cases h' with
  | same => exact h
  | any => exact .any
  | extending hsub =>
      have hwantedBound := hwanted.upperOf hreg
      cases h with
      | same => exact .extending hsub
      | any => exact .extending (.of_object hreg hobject hupper hwantedBound hsub)
      | extending hsub' =>
          exact .extending (hbound _ (Or.inl rfl) _ _ hupper hwantedBound hsub' hsub)
      | superOf => exact .extending (.of_object hreg hobject hupper hwantedBound hsub)
  | superOf hlower hsub =>
      have hwantedBound := hwanted.lowerOf? rfl
      cases h with
      | same => exact .superOf hlower hsub
      | any => simp [lowerOf?, Ty.unbounded] at hlower
      | extending => simp [lowerOf?, Ty.extending] at hlower
      | superOf hlower' hsub' =>
          simp only [lowerOf?, Ty.superOf, List.head?_cons, Option.some.injEq] at hlower
          subst hlower
          exact .superOf hlower'
            (hbound _ (Or.inr rfl) _ _ hwantedBound (hgiven.lowerOf? hlower') hsub hsub')

/-- The arguments of a subtype stay in step with those of the middle type on the way up. -/
lemma ClassTy.sideBySide (hreg : store.Regular) {source middle : Ty} {id middleId : ClassId}
    (hmiddle : store.ClassTy middle) (hexposed : store.Exposed middle)
    (hraw : source.rawClass? = some id) (hraw' : middle.rawClass? = some middleId)
    (hlength : middle.args.length = (store.paramsOf middleId).length)
    {levels : List (ClassId × List Ty)} (hlevels : store.Ascent middleId id source.args levels)
    (h : store.Sub source middle) :
    store.SideBySide (fun given wanted => store.Fits given wanted ∧ wanted ∈ middle.args) middleId
      (argsAt middleId levels) middle.args := by
  intro v given wanted hgiven hwanted
  have hfits := hmiddle.fits_of_sub hraw hraw' hlevels h (given, wanted)
    (mem_zip_of_assigning hreg hlength hgiven hwanted)
  have hmem := (mem_of_assigning hwanted).2
  by_cases hwildcard : wanted.isWildcard = true
  · exact Or.inr ⟨⟨hfits, hmem⟩, hexposed.not_buries hraw' hwanted hwildcard⟩
  · cases (hmiddle.arg hmem).plain with
    | type hplain => exact Or.inl ((fits_iff_of_plain hplain).mp hfits)
    | _ => exact absurd rfl hwildcard

/-- What a class type has for arguments further up is built as its own arguments are. -/
lemma ClassTy.found_arg (hreg : store.Regular) (hedges : store.PlainEdges)
    (harrays : store.ArrayFreeEdges) {source arg : Ty} {id target : ClassId}
    (hsource : store.ClassTy source) (hraw : source.rawClass? = some id)
    (htarget : store.wellKnown.isPrimitive target = false) (hbelow : store.Below id target)
    {levels : List (ClassId × List Ty)} (hlevels : store.Ascent target id source.args levels)
    (hsees : store.Sees id source.args target (argsAt target levels))
    (harg : arg ∈ argsAt target levels) : store.ClassArg arg := by
  obtain ⟨level, hlevel, hmem⟩ := mem_of_mem_argsAt harg
  exact
    { plain :=
        hsource.plain.ascent_plain hreg hedges hraw htarget hbelow hlevels level hlevel arg hmem
      arrayFree := hsees.arrayFree harrays (fun arg harg => (hsource.arg harg).arrayFree) arg harg }

section

variable (hreg : store.Regular) (hedges : store.PlainEdges) (harrays : store.ArrayFreeEdges)
  (hobject : store.paramsOf store.wellKnown.object = []) (hconfluent : store.Confluent)

include hreg hedges harrays hobject hconfluent

/-- Subtyping of applied classes is transitive through a type, if it is so through the bounds of its
arguments. -/
theorem Sub.trans_app {source middle : Ty} {target : ClassId} {args : List Ty}
    (hsource : store.ClassTy source) (hmiddle : store.ClassTy middle)
    (htarget : store.ClassTy (.app target args)) (hexposed : store.Exposed middle)
    (hne : target ≠ store.wellKnown.object)
    (hbounds : ∀ arg ∈ middle.args, ∀ bound, arg = .extending bound ∨ arg = .superOf bound →
      store.TransThrough bound)
    (h : store.Sub source middle) (h' : store.Sub middle (.app target args)) :
    store.Sub source (.app target args) := by
  have hwalk := hreg.toWalkable
  obtain ⟨id, hraw, hid⟩ := hsource.exists_class
  obtain ⟨middleId, hraw', hmiddleId⟩ := hmiddle.exists_class
  have hprim : store.wellKnown.isPrimitive target = false := (htarget.plain.reference rfl).2
  have hbelow := hmiddle.below_of_sub hraw hraw' h
  have hbelow' := h'.below_of_app hraw'
  have hneMiddle : middleId ≠ store.wellKnown.object :=
    fun heq => hne (hreg.eq_object (heq ▸ hbelow'))
  have hlength := hsource.length_args hobject hraw
  have hlengthMiddle := hmiddle.length_args hobject hraw'
  have hlengthTarget : args.length = (store.paramsOf target).length := htarget.plain.length_args
  -- Three ways: to the middle type, from there to the target, and from the source to the target.
  have hbelowTarget := hbelow.trans hreg hbelow'
  obtain ⟨toMiddle, htoMiddle, hseesMiddle⟩ :=
    hreg.exists_ascent_sees source.args hid.1 hmiddleId.2 hbelow hneMiddle
  obtain ⟨onward, honward, hseesOnward⟩ :=
    hreg.exists_ascent_sees middle.args hmiddleId.1 hprim hbelow' hne
  obtain ⟨direct, hdirect, hseesDirect⟩ :=
    hreg.exists_ascent_sees source.args hid.1 hprim hbelowTarget hne
  have hside := hmiddle.sideBySide hreg hexposed hraw hraw' hlengthMiddle htoMiddle h
  obtain ⟨found, hfound, hside'⟩ := hseesOnward.transport hwalk hside
    (hseesMiddle.arity hwalk hlength) hlengthMiddle
  have hsame : found = argsAt target direct :=
    hconfluent id source.args target _ _ hlength (hseesMiddle.trans hfound) hseesDirect
  subst hsame
  refine (sub_app_iff hraw hbelowTarget hdirect).mpr ?_
  rw [← forall_lookup_zip_iff _ _ (hreg.params_nodup target) hlengthTarget]
  intro v hv given wanted hgiven hwanted
  obtain ⟨between, hbetween⟩ :=
    exists_assigning (hseesOnward.arity hwalk hlengthMiddle) hv
  have hfits := htarget.fits_of_sub hraw' rfl honward h' (between, wanted)
    (mem_zip_of_assigning hreg hlengthTarget hbetween hwanted)
  rcases hside' v given between hgiven hbetween with rfl | ⟨⟨hfits', hmem⟩, -⟩
  · exact hfits
  have hgivenArg := hsource.found_arg hreg hedges harrays hraw hprim hbelowTarget hdirect
    hseesDirect (mem_of_assigning hgiven).2
  exact hfits'.trans_of hreg hobject hgivenArg (htarget.arg (mem_of_assigning hwanted).2)
    (hbounds between hmem) hfits

/-- **Subtyping is transitive through every type in which no wildcard is buried.**  The induction is
on the nesting of that type. -/
theorem Sub.trans_of {middle : Ty} (hmiddle : store.ClassTy middle)
    (hexposed : store.Exposed middle) : store.TransThrough middle := by
  induction hn : middle.nesting using Nat.strong_induction_on generalizing middle with
  | _ n ih =>
      subst hn
      intro source target hsource htarget h h'
      obtain ⟨id, hraw, -⟩ := hsource.exists_class
      obtain ⟨middleId, hraw', -⟩ := hmiddle.exists_class
      have hbelow := hmiddle.below_of_sub hraw hraw' h
      cases htarget.plain with
      | cls => exact .toClass hraw (hbelow.trans hreg ((sub_cls_iff hraw').mp h'))
      | @app _ targetId args =>
          by_cases hne : targetId = store.wellKnown.object
          · subst hne
            have hnone : args.length = 0 := by rw [htarget.plain.length_args, hobject]; rfl
            rw [List.length_eq_zero_iff] at hnone
            subst hnone
            exact .of_object hreg hobject hsource htarget
              (.toApplied rfl (Or.inl rfl) (.arrive []) (by simp))
          refine .trans_app hreg hedges harrays hobject hconfluent hsource hmiddle htarget
            hexposed hne (fun arg harg bound hbound => ?_) h h'
          have hlt := Ty.nesting_lt_of_mem_args harg
          rcases hbound with rfl | rfl
          · exact ih _ (Ty.nesting_extending_lt.trans hlt) ((hmiddle.arg harg).upperOf hreg)
              (hexposed.arg harg).bound_of_extending rfl
          · exact ih _ (Ty.nesting_superOf_lt.trans hlt) ((hmiddle.arg harg).lowerOf? rfl)
              (hexposed.arg harg).bound_of_superOf rfl
      | var hv => exact absurd hv (by simp)
      | array => simpa [Ty.arrayFree] using htarget.arrayFree
      | primitives => simpa [Ty.arrayFree] using htarget.arrayFree

end

/-! ## Checking the conditions -/

/-- Whether a type is plain and without arrays. -/
def isClassTy (store : Store) (ty : Ty) : Bool :=
  store.isPlain false [] ty && ty.arrayFree

lemma ClassTy.of_isClassTy {ty : Ty} (h : store.isClassTy ty = true) : store.ClassTy ty := by
  rw [isClassTy, Bool.and_eq_true] at h
  exact ⟨.of_isPlain h.1, h.2⟩

lemma ArrayFreeEdges.of_edgeArgs (h : Ty.arrayFreeAll store.edgeArgs = true) :
    store.ArrayFreeEdges :=
  fun _ _ hdecl _ hedge arg harg => Ty.arrayFreeAll_iff.mp h arg (mem_edgeArgs hdecl hedge harg)

end Store

/-! ## The program -/

/-- A class type but for its owners, each of which has no variables and, where it applies a class,
as many arguments as it should. -/
structure Store.OwnedClassTy (store : Store) (ty : Ty) : Prop where
  bare : store.ClassTy ty.withoutOwners
  mayOwn : ∀ owner ∈ ty.owners, store.MayOwn owner

lemma Store.OwnedClassTy.owned {store : Store} {ty : Ty} (h : store.OwnedClassTy ty)
    (hobject : store.paramsOf store.wellKnown.object = []) : store.Owned ty where
  bare := h.bare.plain
  fit := ⟨h.mayOwn, Or.inr hobject⟩

namespace Store

/-- In a store in which `Comparable` has no supertypes, any bound that is exposed may stand in a
wildcard for what is compared. -/
lemma exposed_comparable {store : Store} {decl : ClassDecl} {bound : Ty}
    (hcomparable : store.class? ⟨4⟩ = some decl) (hnone : decl.edges.supertypes = [])
    (hbound : store.Exposed bound) : store.Exposed (.app ⟨4⟩ [.extending bound]) := by
  refine .app (fun arg harg => ?_) fun v _ _ _ => not_buries_of_no_supertypes hcomparable hnone v
  rw [List.mem_singleton.mp harg]
  exact .extending hbound

end Store

namespace Store

/-- The core store with a class `Shelf<T>` that implements the given type. -/
def shelf (implemented : Ty) : Store :=
  .ofDeclarations Stock.wellKnown
    (Stock.coreClasses ++
      [ { name := "com.example.Shelf", params := [⟨1⟩], superclass := some Stock.object,
          interfaces := [implemented] } ])
    (Stock.coreParams ++ [Stock.paramOf ⟨23⟩ "T"])

/-- Of three class types the first can be assigned to the second and that to the third, and yet not
the first to the third. -/
def BreaksAt (store : Store) (source middle target : Ty) : Prop :=
  let checker : Checker := { store := store }
  store.ClassTy source ∧ store.ClassTy middle ∧ store.ClassTy target ∧
    checker.answer (checker.assignable (some source) middle none) = .ok true ∧
    checker.answer (checker.assignable (some middle) target none) = .ok true ∧
    checker.answer (checker.assignable (some source) target none) = .ok false

end Store

/-- The core store with a generic `Object`, and with one class that has a supertype: it is an
`Object` of integers. -/
def Store.objectOfIntegers : Store :=
  .ofDeclarations Stock.wellKnown
    ((Stock.coreClasses.map fun decl => { decl with superclass := none, interfaces := [] }).set
        Stock.wellKnown.object.index { name := "java.lang.Object", params := [⟨1⟩] } ++
      [ { name := "com.example.Leaf",
          superclass := some (.app Stock.wellKnown.object [.cls Stock.wellKnown.integer]) } ])
    (Stock.coreParams ++ [Stock.paramOf Stock.wellKnown.object "T"])

/-- A store with three class types in it.  Listed beside it are the classes that are generic or lead
to such. -/
structure Break where
  store : Store
  leads : List ClassId
  source : Ty
  middle : Ty
  target : Ty

namespace Break

/-- Whether assignability breaks off there, on a store that a language would allow. -/
def check (b : Break) : Bool :=
  let checker : Checker := { store := b.store }
  b.store.isRegular && b.store.leadsOnce b.leads && b.store.isClassTy b.source &&
    b.store.isClassTy b.middle && b.store.isClassTy b.target &&
    decide (checker.answer (checker.assignable (some b.source) b.middle none) = .ok true) &&
    decide (checker.answer (checker.assignable (some b.middle) b.target none) = .ok true) &&
    decide (checker.answer (checker.assignable (some b.source) b.target none) = .ok false)

lemma of_check {b : Break} (h : b.check = true) :
    b.store.Regular ∧ b.store.Confluent ∧ b.store.BreaksAt b.source b.middle b.target := by
  simp only [check, Bool.and_eq_true, decide_eq_true_eq, and_assoc] at h
  obtain ⟨hregular, hleads, hsource, hmiddle, htarget, hfirst, hsecond, hbroken⟩ := h
  have hreg : b.store.Regular := .of_isRegular hregular
  exact ⟨hreg, .of_leadsOnce hreg.toWalkable b.leads hleads, .of_isClassTy hsource,
    .of_isClassTy hmiddle, .of_isClassTy htarget, hfirst, hsecond, hbroken⟩

def wildcardShelf : Break where
  store := .shelf (.app ⟨4⟩ [.extending (.var ⟨1⟩)])
  leads := [⟨4⟩, ⟨5⟩, ⟨8⟩, ⟨10⟩, ⟨12⟩, ⟨14⟩, ⟨16⟩, ⟨18⟩, ⟨20⟩, ⟨22⟩, ⟨23⟩]
  source := .app ⟨23⟩ [.extending (.app ⟨4⟩ [.extending (.cls ⟨5⟩)])]
  middle := .app ⟨4⟩ [.extending (.app ⟨4⟩ [.extending (.cls ⟨5⟩)])]
  target := .app ⟨4⟩ [.extending (.cls ⟨0⟩)]

def arrayShelf : Break where
  store := .shelf (.app ⟨4⟩ [.array (.cls ⟨5⟩)])
  leads := [⟨4⟩, ⟨5⟩, ⟨8⟩, ⟨10⟩, ⟨12⟩, ⟨14⟩, ⟨16⟩, ⟨18⟩, ⟨20⟩, ⟨22⟩, ⟨23⟩]
  source := .app ⟨23⟩ [.cls ⟨5⟩]
  middle := .app ⟨4⟩ [.extending (.cls ⟨0⟩)]
  target := .app ⟨4⟩ [.extending (.app ⟨0⟩ [])]

def genericObject : Break where
  store := .objectOfIntegers
  leads := [⟨0⟩, ⟨4⟩, ⟨23⟩]
  source := .app ⟨4⟩ [.cls ⟨23⟩]
  middle := .app ⟨4⟩ [.extending (.cls ⟨0⟩)]
  target := .app ⟨4⟩ [.extending (.app ⟨0⟩ [.cls ⟨5⟩])]

/-- All that is to be computed about them, in one go: that they are breaks, and which of the
conditions on edges they keep. -/
lemma checked :
    (wildcardShelf.check = true ∧ Ty.arrayFreeAll wildcardShelf.store.edgeArgs = true) ∧
      (arrayShelf.check = true ∧ arrayShelf.store.hasPlainEdges = true) ∧
      genericObject.check = true ∧ genericObject.store.hasPlainEdges = true ∧
        Ty.arrayFreeAll genericObject.store.edgeArgs = true := by
  decide +kernel

end Break

/-- A wildcard that gets inside a wildcard: as the bound of one it is assignable through its own
bound to an applied class, and to no class without arguments. -/
theorem wildcardShelf_not_trans :
    let store := Store.shelf (.app ⟨4⟩ [.extending (.var ⟨1⟩)])
    let ofStrings := Ty.extending (.app ⟨4⟩ [.extending (.cls store.wellKnown.string)])
    let ofObjects := Ty.extending store.objectTy
    store.Regular ∧ store.ArrayFreeEdges ∧ store.paramsOf store.wellKnown.object = [] ∧
      store.Confluent ∧ store.Exposed (.app ⟨4⟩ [ofStrings]) ∧
      store.BreaksAt (.app ⟨23⟩ [ofStrings]) (.app ⟨4⟩ [ofStrings]) (.app ⟨4⟩ [ofObjects]) := by
  intro store ofStrings ofObjects
  obtain ⟨⟨hcheck, harrays⟩, -⟩ := Break.checked
  obtain ⟨hreg, hconfluent, hbreaks⟩ := Break.of_check hcheck
  have hexposed : store.Exposed (.app ⟨4⟩ [ofStrings]) :=
    Store.exposed_comparable rfl rfl (Store.exposed_comparable rfl rfl .cls)
  exact ⟨hreg, .of_edgeArgs harrays, rfl, hconfluent, hexposed, hbreaks⟩

/-- An array is an `Object`, and that is an `Object` applied to no arguments, which no array is. -/
theorem arrayShelf_not_trans :
    let store := Store.shelf (.app ⟨4⟩ [.array (.cls ⟨5⟩)])
    let someObject := Ty.extending store.objectTy
    let someApplied := Ty.extending (.app store.wellKnown.object [])
    store.Regular ∧ store.PlainEdges ∧ store.paramsOf store.wellKnown.object = [] ∧
      store.Confluent ∧ store.Exposed (.app ⟨4⟩ [someObject]) ∧
      store.BreaksAt (.app ⟨23⟩ [.cls ⟨5⟩]) (.app ⟨4⟩ [someObject]) (.app ⟨4⟩ [someApplied]) := by
  intro store someObject someApplied
  obtain ⟨-, ⟨hcheck, hplain⟩, -⟩ := Break.checked
  obtain ⟨hreg, hconfluent, hbreaks⟩ := Break.of_check hcheck
  exact ⟨hreg, Store.plainEdges_of_check hplain, rfl, hconfluent,
    Store.exposed_comparable rfl rfl .cls, hbreaks⟩

/-- The implicit bound of a wildcard is `Object` without arguments, even if it is generic, and what
has no arguments fits everywhere. -/
theorem objectOfIntegers_not_trans :
    let store := Store.objectOfIntegers
    let ofStrings := Ty.extending (.app store.wellKnown.object [.cls store.wellKnown.string])
    store.Regular ∧ store.PlainEdges ∧ store.ArrayFreeEdges ∧ store.Confluent ∧
      store.Exposed (.app ⟨4⟩ [.extending store.objectTy]) ∧
      store.BreaksAt (.app ⟨4⟩ [.cls ⟨23⟩]) (.app ⟨4⟩ [.extending store.objectTy])
        (.app ⟨4⟩ [ofStrings]) := by
  intro store ofStrings
  obtain ⟨-, -, hcheck, hplain, harrays⟩ := Break.checked
  obtain ⟨hreg, hconfluent, hbreaks⟩ := Break.of_check hcheck
  exact ⟨hreg, Store.plainEdges_of_check hplain, .of_edgeArgs harrays, hconfluent,
    Store.exposed_comparable rfl rfl .cls, hbreaks⟩

end JavaGenerics
