import JavaGenerics.Proofs.PlainTypes

/-!
# Subtyping by rules

What assignability among plain types *means*, said without a program: a relation that is generated
by a rule for each pair of shapes.

* `Store.Sub` — one plain type is a subtype of another, and `Store.Fits` — an argument fits where
  another one is wanted.  The two need each other: arguments of wildcards are compared by their
  bounds, and the direction is turned round below a lower bound.
* `Store.argsAt` — the arguments with which a class is seen at the end of its way to a target.

Below the rules stand their inversions, one for each pair of shapes (`sub_cls_iff`,
`sub_app_iff`, `sub_array_iff`, `fits_iff_…`): **for given shapes one rule applies at most.**
-/

namespace JavaGenerics

open Relation

namespace Store

variable (store : Store)

/-- The type that bounds an argument from above: the argument itself, unless it is a wildcard. -/
def upperOf : Ty → Ty
  | .wildcard (bound :: _) _ => bound
  | .wildcard [] _ => store.objectTy
  | ty => ty

/-- The type that bounds an argument from below.  A wildcard may have none. -/
def lowerOf? : Ty → Option Ty
  | .wildcard _ lower => lower.head?
  | ty => some ty

/-- The arguments of the level that belongs to the target.  On the way to `Object` there may be no
such level, and then there are none. -/
def argsAt (target : ClassId) (levels : List (ClassId × List Ty)) : List Ty :=
  (levels.lookup target).getD []

mutual

/-- Subtyping of plain types. -/
inductive Sub : Ty → Ty → Prop
  /-- Arguments do not matter where the target has none. -/
  | toClass {source : Ty} {id target : ClassId} (hraw : source.rawClass? = some id)
      (hbelow : store.Below id target) : Sub source (.cls target)
  /-- The arguments of the source, as seen from the class of the target, fit those of the target. -/
  | toApplied {source : Ty} {id target : ClassId} {args : List Ty}
      {levels : List (ClassId × List Ty)} (hraw : source.rawClass? = some id)
      (hbelow : store.Below id target) (hlevels : store.Ascent target id source.args levels)
      (hfits : ∀ pair ∈ (argsAt target levels).zip args, Fits pair.1 pair.2) :
      Sub source (.app target args)
  | toObject {component : Ty} : Sub (.array component) (.cls store.wellKnown.object)
  /-- Arrays are cloneable and serializable, unless they are generic. -/
  | toMarker {component : Ty} {target : ClassId} (hcomponent : component.isGenericComponent = false)
      (htarget : target = store.wellKnown.cloneable ∨ target = store.wellKnown.serializable) :
      Sub (.array component) (.cls target)
  | arrays {given wanted : Ty} (hgiven : store.Plain [] given) (hwanted : store.Plain [] wanted)
      (h : Sub given wanted) : Sub (.array given) (.array wanted)
  | primitives {id : ClassId} (hid : store.wellKnown.isPrimitive id = true) :
      Sub (.array (.cls id)) (.array (.cls id))

/-- An argument fits where it is wanted itself, or a wildcard that contains it. -/
inductive Fits : Ty → Ty → Prop
  | same {arg : Ty} : Fits arg arg
  | any {arg : Ty} : Fits arg .unbounded
  | extending {arg bound : Ty} (h : Sub (store.upperOf arg) bound) : Fits arg (.extending bound)
  | superOf {arg bound lower : Ty} (hlower : lowerOf? arg = some lower) (h : Sub bound lower) :
      Fits arg (.superOf bound)

end

variable {store}

/-! ## Reflexivity and the top -/

/-- Every plain type is a subtype of itself. -/
theorem Plain.sub_self : ∀ {ty : Ty}, store.Plain [] ty → store.Sub ty ty
  | .cls id, _ => .toClass rfl (Or.inl rfl)
  | .applied raw args owner, h => by
    cases h
    refine .toApplied rfl (Or.inl rfl) (.arrive args) fun pair hpair => ?_
    simp only [argsAt, List.lookup_cons_self, Option.getD_some, List.zip_eq_zipWith,
      List.zipWith_self, List.mem_map] at hpair
    obtain ⟨arg, -, rfl⟩ := hpair
    exact .same
  | .var v, h => by
    cases h with
    | var hv => exact absurd hv (by simp)
  | .wildcard upper lower, h => absurd h.isWildcard (by simp [Ty.isWildcard])
  | .array component, h => by
    cases h with
    | array hcomponent => exact .arrays hcomponent hcomponent hcomponent.sub_self
    | primitives hid => exact .primitives hid

/-- Every plain type is a subtype of `Object`. -/
lemma Plain.sub_object {ty : Ty} (h : store.Plain [] ty) : store.Sub ty store.objectTy := by
  cases h with
  | cls => exact .toClass rfl (Or.inr (Or.inl rfl))
  | app => exact .toClass rfl (Or.inr (Or.inl rfl))
  | var hv => exact absurd hv (by simp)
  | array => exact .toObject
  | primitives => exact .toObject

/-! ## Bounds of plain arguments -/

lemma Regular.object_plain (hreg : store.Regular) (own : List TypeVarId) :
    store.Plain own store.objectTy :=
  .cls hreg.object_reference (Or.inl rfl)

lemma Plain.upperOf_eq {own : List TypeVarId} {ty : Ty} (h : store.Plain own ty) :
    store.upperOf ty = ty := by
  cases h <;> rfl

lemma Plain.lowerOf?_eq {own : List TypeVarId} {ty : Ty} (h : store.Plain own ty) :
    lowerOf? ty = some ty := by
  cases h <;> rfl

/-! ## One rule for each pair of shapes -/

variable {source component wanted : Ty} {id target : ClassId} {args : List Ty}

lemma sub_cls_iff (hraw : source.rawClass? = some id) :
    store.Sub source (.cls target) ↔ store.Below id target := by
  constructor
  · intro h
    cases h with
    | toClass hraw' hbelow =>
        rw [hraw, Option.some.injEq] at hraw'
        exact hraw' ▸ hbelow
    | toObject => simp [Ty.rawClass?] at hraw
    | toMarker => simp [Ty.rawClass?] at hraw
  · exact .toClass hraw

lemma sub_array_cls_iff : store.Sub (.array component) (.cls target) ↔
    target = store.wellKnown.object ∨ component.isGenericComponent = false ∧
      (target = store.wellKnown.cloneable ∨ target = store.wellKnown.serializable) := by
  constructor
  · intro h
    cases h with
    | toClass hraw => simp [Ty.rawClass?] at hraw
    | toObject => exact Or.inl rfl
    | toMarker hcomponent htarget => exact Or.inr ⟨hcomponent, htarget⟩
  · rintro (rfl | ⟨hcomponent, htarget⟩)
    · exact .toObject
    · exact .toMarker hcomponent htarget

lemma Sub.below_of_app (hraw : source.rawClass? = some id)
    (h : store.Sub source (.app target args)) : store.Below id target := by
  cases h with
  | toApplied hraw' hbelow =>
      rw [hraw, Option.some.injEq] at hraw'
      exact hraw' ▸ hbelow

/-- Whether a class is a subtype of an applied one is decided by the arguments at the end of the way
there. -/
lemma sub_app_iff {levels : List (ClassId × List Ty)} (hraw : source.rawClass? = some id)
    (hbelow : store.Below id target) (hlevels : store.Ascent target id source.args levels) :
    store.Sub source (.app target args) ↔
      ∀ pair ∈ (argsAt target levels).zip args, store.Fits pair.1 pair.2 := by
  constructor
  · intro h
    cases h with
    | toApplied hraw' _ hlevels' hfits =>
        rw [hraw, Option.some.injEq] at hraw'
        subst hraw'
        rwa [hlevels.unique hlevels']
  · exact .toApplied hraw hbelow hlevels

lemma not_sub_array_app : ¬ store.Sub (.array component) (.app target args) := by
  intro h
  cases h with
  | toApplied hraw => simp [Ty.rawClass?] at hraw

lemma not_sub_class_array (hraw : source.rawClass? = some id) :
    ¬ store.Sub source (.array component) := by
  intro h
  cases h <;> simp [Ty.rawClass?] at hraw

/-- A primitive is not plain on its own. -/
lemma Plain.not_primitive {own : List TypeVarId} (h : store.Plain own (.cls id)) :
    store.wellKnown.isPrimitive id = false := by
  cases h with
  | cls hid => exact hid.2

lemma sub_array_iff (hgiven : store.Plain [] component) (hwanted : store.Plain [] wanted) :
    store.Sub (.array component) (.array wanted) ↔ store.Sub component wanted := by
  constructor
  · intro h
    cases h with
    | arrays _ _ h => exact h
    | primitives => exact hgiven.sub_self
  · exact .arrays hgiven hwanted

lemma sub_primitives_iff (hid : store.wellKnown.isPrimitive id = true) :
    store.Sub (.array (.cls id)) (.array wanted) ↔ wanted = .cls id := by
  constructor
  · intro h
    cases h with
    | arrays hgiven => exact absurd hid (by simp [hgiven.not_primitive])
    | primitives => rfl
  · rintro rfl
    exact .primitives hid

lemma sub_to_primitives_iff (hid : store.wellKnown.isPrimitive id = true) :
    store.Sub (.array component) (.array (.cls id)) ↔ component = .cls id := by
  constructor
  · intro h
    cases h with
    | arrays _ hwanted => exact absurd hid (by simp [hwanted.not_primitive])
    | primitives => rfl
  · rintro rfl
    exact .primitives hid

lemma fits_iff_of_plain {own : List TypeVarId} {arg : Ty} (h : store.Plain own wanted) :
    store.Fits arg wanted ↔ arg = wanted := by
  constructor
  · intro hfits
    cases hfits with
    | same => rfl
    | _ =>
        exact absurd h.isWildcard (by simp [Ty.isWildcard, Ty.unbounded, Ty.extending, Ty.superOf])
  · rintro rfl
    exact .same

lemma fits_extending_iff {arg bound : Ty} (h : store.Plain [] bound) :
    store.Fits arg (.extending bound) ↔ store.Sub (store.upperOf arg) bound := by
  constructor
  · intro hfits
    cases hfits with
    | same => exact h.sub_self
    | extending hsub => exact hsub
  · exact .extending

lemma fits_superOf_iff {arg bound : Ty} (h : store.Plain [] bound) :
    store.Fits arg (.superOf bound) ↔
      ∃ lower, lowerOf? arg = some lower ∧ store.Sub bound lower := by
  constructor
  · intro hfits
    cases hfits with
    | same => exact ⟨bound, rfl, h.sub_self⟩
    | superOf hlower hsub => exact ⟨_, hlower, hsub⟩
  · rintro ⟨lower, hlower, hsub⟩
    exact .superOf hlower hsub

end Store

end JavaGenerics
