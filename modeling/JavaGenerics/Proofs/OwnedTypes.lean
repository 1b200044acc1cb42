import JavaGenerics.Proofs.OwnerVariables
import JavaGenerics.Proofs.SubtypeRules

/-!
# Types with owners

An inner class is written through the class it lies in, and the type in front of the dot may bring
arguments of its own.  Two types that differ in such owners only are equal as far as the language is
concerned, so nothing that is asked about them should depend on the owners.  A walk does bind what
the owner brings along, though, and that has to be shown not to matter.

* `Ty.owners` — all the owners in a type, those of owners included.
* `Store.MayOwn` — what may stand as an owner, and `Store.OwnersFit` — a type in which nothing else
  does.
* `Store.Owned` — a type that is plain but for its owners, and `Store.OwnedArg` — what may stand as
  an argument in one.  A plain type is one without owners.
* `Ascent.withoutOwners` — **the way up is the same without owners**, with the owners dropped from
  what is found on it, and `Ascent.owned` — what is found is an argument of this kind again.
* `Store.bindOwner` — what an owner brings along.
-/

namespace JavaGenerics

namespace Ty

/-! ## Owners in a type -/

mutual

/-- The owners in a type, at every depth, those of owners included. -/
def owners : Ty → List Ty
  | .cls _ => []
  | .applied _ args owner => ownersAll args ++ ownersOf owner
  | .var _ => []
  | .wildcard upper lower => ownersAll upper ++ ownersAll lower
  | .array component => owners component

def ownersAll : List Ty → List Ty
  | [] => []
  | ty :: rest => owners ty ++ ownersAll rest

def ownersOf : Option Ty → List Ty
  | none => []
  | some owner => owner :: owners owner

end

lemma mem_ownersAll {types : List Ty} {owner : Ty} :
    owner ∈ ownersAll types ↔ ∃ ty ∈ types, owner ∈ ty.owners := by
  induction types with
  | nil => simp [ownersAll]
  | cons ty rest ih => simp [ownersAll, ih]

mutual

/-- A type without owners is left as it is when owners are dropped. -/
theorem withoutOwners_eq_self : ∀ ty : Ty, ty.owners = [] → ty.withoutOwners = ty
  | .cls _, _ => rfl
  | .applied _ args owner, h => by
    rw [owners, List.append_eq_nil_iff] at h
    cases owner with
    | none => rw [withoutOwners, withoutOwnersAll_eq_self args h.1]
    | some owner => exact absurd h.2 (by simp [ownersOf])
  | .var _, _ => rfl
  | .wildcard upper lower, h => by
    rw [owners, List.append_eq_nil_iff] at h
    rw [withoutOwners, withoutOwnersAll_eq_self upper h.1, withoutOwnersAll_eq_self lower h.2]
  | .array component, h => by
    rw [withoutOwners, withoutOwners_eq_self component h]

theorem withoutOwnersAll_eq_self : ∀ types : List Ty, ownersAll types = [] →
    withoutOwnersAll types = types
  | [], _ => rfl
  | ty :: rest, h => by
    rw [ownersAll, List.append_eq_nil_iff] at h
    rw [withoutOwnersAll, withoutOwners_eq_self ty h.1, withoutOwnersAll_eq_self rest h.2]

end

mutual

/-- The variables of a type are those outside of its owners and those of the owners. -/
theorem ground_of_withoutOwners : ∀ ty : Ty, ty.withoutOwners.Ground →
    (∀ owner ∈ ty.owners, owner.Ground) → ty.Ground
  | .cls _, _, _ => rfl
  | .applied _ args owner, h, howners => by
    simp only [withoutOwners, ground_applied, owners, List.forall_mem_append] at h howners ⊢
    refine ⟨varsAll_of_withoutOwners args h.1 howners.1, ?_⟩
    cases owner with
    | none => rfl
    | some owner => exact howners.2 owner (by simp [ownersOf])
  | .var _, h, _ => h
  | .wildcard upper lower, h, howners => by
    simp only [withoutOwners, Ground, vars, List.append_eq_nil_iff, owners,
      List.forall_mem_append] at h howners ⊢
    exact ⟨varsAll_of_withoutOwners upper h.1 howners.1,
      varsAll_of_withoutOwners lower h.2 howners.2⟩
  | .array component, h, howners => ground_of_withoutOwners component h howners

theorem varsAll_of_withoutOwners : ∀ types : List Ty, varsAll (withoutOwnersAll types) = [] →
    (∀ owner ∈ ownersAll types, owner.Ground) → varsAll types = []
  | [], _, _ => rfl
  | ty :: rest, h, howners => by
    simp only [withoutOwnersAll, varsAll, List.append_eq_nil_iff, ownersAll,
      List.forall_mem_append] at h howners ⊢
    exact ⟨ground_of_withoutOwners ty h.1 howners.1, varsAll_of_withoutOwners rest h.2 howners.2⟩

end

mutual

/-- Where types are put in for the variables of a type without owners, all owners come from them. -/
theorem owners_subst {σ : TypeVarId → Option Ty} {owner : Ty} : ∀ ty : Ty, ty.owners = [] →
    owner ∈ (ty.subst σ).owners → ∃ v t, σ v = some t ∧ owner ∈ t.owners
  | .cls _, _, h => by simp [subst, owners] at h
  | .applied _ args none, hnone, h => by
    rw [owners, List.append_eq_nil_iff] at hnone
    simp only [subst, substOwner, owners, ownersOf, List.append_nil] at h
    exact ownersAll_substAll args hnone.1 h
  | .applied _ args (some outer), hnone, _ => by simp [owners, ownersOf] at hnone
  | .var v, _, h => by
    cases hv : σ v with
    | none => simp [subst, hv, owners] at h
    | some t => exact ⟨v, t, hv, by simpa [subst, hv] using h⟩
  | .wildcard upper lower, hnone, h => by
    rw [owners, List.append_eq_nil_iff] at hnone
    rw [subst, owners, List.mem_append] at h
    rcases h with h | h
    · exact ownersAll_substAll upper hnone.1 h
    · exact ownersAll_substAll lower hnone.2 h
  | .array component, hnone, h => owners_subst component hnone h

theorem ownersAll_substAll {σ : TypeVarId → Option Ty} {owner : Ty} : ∀ types : List Ty,
    ownersAll types = [] → owner ∈ ownersAll (substAll σ types) →
      ∃ v t, σ v = some t ∧ owner ∈ t.owners
  | [], _, h => by simp [substAll, ownersAll] at h
  | ty :: rest, hnone, h => by
    rw [ownersAll, List.append_eq_nil_iff] at hnone
    rw [substAll, ownersAll, List.mem_append] at h
    rcases h with h | h
    · exact owners_subst ty hnone.1 h
    · exact ownersAll_substAll rest hnone.2 h

end

/-! ## What is left without them -/

section Shapes

variable {ty : Ty}

lemma withoutOwnersAll_eq_map (types : List Ty) :
    withoutOwnersAll types = types.map withoutOwners := by
  induction types with
  | nil => rfl
  | cons ty rest ih => simp [withoutOwnersAll, ih]

@[simp]
lemma rawClass?_withoutOwners : ty.withoutOwners.rawClass? = ty.rawClass? := by
  cases ty <;> rfl

@[simp]
lemma isArray_withoutOwners : ty.withoutOwners.isArray = ty.isArray := by
  cases ty <;> rfl

@[simp]
lemma isWildcard_withoutOwners : ty.withoutOwners.isWildcard = ty.isWildcard := by
  cases ty <;> rfl

@[simp]
lemma args_withoutOwners : ty.withoutOwners.args = ty.args.map withoutOwners := by
  cases ty with
  | applied raw args owner => exact withoutOwnersAll_eq_map args
  | _ => rfl

@[simp]
lemma isGenericComponent_withoutOwners :
    ty.withoutOwners.isGenericComponent = ty.isGenericComponent := by
  induction ty using isGenericComponent.induct with
  | case3 component ih => exact ih
  | _ => rfl

lemma withoutOwners_eq_cls_iff {id : ClassId} : ty.withoutOwners = .cls id ↔ ty = .cls id := by
  cases ty <;> simp [withoutOwners]

lemma exists_of_withoutOwners_eq_app {raw : ClassId} {args : List Ty}
    (h : ty.withoutOwners = .app raw args) :
    ∃ given owner, ty = .applied raw given owner ∧ given.map withoutOwners = args := by
  cases ty with
  | applied raw given owner =>
      rw [withoutOwners, app, applied.injEq, withoutOwnersAll_eq_map] at h
      exact ⟨given, owner, by rw [h.1], h.2.1⟩
  | _ => simp [withoutOwners, app] at h

lemma exists_of_withoutOwners_eq_array {component : Ty} (h : ty.withoutOwners = .array component) :
    ∃ given, ty = .array given ∧ given.withoutOwners = component := by
  cases ty with
  | array given => exact ⟨given, rfl, by simpa [withoutOwners] using h⟩
  | _ => simp [withoutOwners] at h

lemma exists_of_withoutOwners_eq_wildcard {upper lower : List Ty}
    (h : ty.withoutOwners = .wildcard upper lower) :
    ∃ above below, ty = .wildcard above below ∧ above.map withoutOwners = upper ∧
      below.map withoutOwners = lower := by
  cases ty with
  | wildcard above below =>
      rw [withoutOwners, wildcard.injEq, withoutOwnersAll_eq_map, withoutOwnersAll_eq_map] at h
      exact ⟨above, below, rfl, h⟩
  | _ => simp [withoutOwners] at h

lemma eq_unbounded_of_withoutOwners (h : ty.withoutOwners = .unbounded) : ty = .unbounded := by
  obtain ⟨above, below, rfl, habove, hbelow⟩ := exists_of_withoutOwners_eq_wildcard h
  rw [List.map_eq_nil_iff] at habove hbelow
  rw [habove, hbelow, unbounded]

lemma exists_of_withoutOwners_eq_extending {bare : Ty} (h : ty.withoutOwners = .extending bare) :
    ∃ bound, ty = .extending bound ∧ bound.withoutOwners = bare := by
  obtain ⟨above, below, rfl, habove, hbelow⟩ := exists_of_withoutOwners_eq_wildcard h
  obtain ⟨bound, rfl, hbound⟩ := List.map_eq_singleton_iff.mp habove
  rw [List.map_eq_nil_iff] at hbelow
  exact ⟨bound, by rw [hbelow, extending], hbound⟩

lemma exists_of_withoutOwners_eq_superOf {bare : Ty} (h : ty.withoutOwners = .superOf bare) :
    ∃ bound, ty = .superOf bound ∧ bound.withoutOwners = bare := by
  obtain ⟨above, below, rfl, habove, hbelow⟩ := exists_of_withoutOwners_eq_wildcard h
  obtain ⟨bound, rfl, hbound⟩ := List.map_eq_singleton_iff.mp hbelow
  rw [List.map_eq_nil_iff] at habove
  exact ⟨bound, by rw [habove, superOf], hbound⟩

lemma owners_extending (bound : Ty) : (extending bound).owners = bound.owners := by
  simp [extending, owners, ownersAll]

lemma owners_superOf (bound : Ty) : (superOf bound).owners = bound.owners := by
  simp [superOf, owners, ownersAll]

lemma owners_subset_of_mem_args {arg : Ty} (harg : arg ∈ ty.args) : arg.owners ⊆ ty.owners := by
  cases ty with
  | applied raw args owner =>
      intro owner howner
      exact List.mem_append_left _ (mem_ownersAll.mpr ⟨arg, harg, howner⟩)
  | _ => simp [args] at harg

end Shapes

end Ty

namespace Store

variable (store : Store)

/-! ## Types that are plain but for their owners -/

/-- What may stand as an owner: a type without variables, which applies a known class, if any, to as
many arguments as it has parameters. -/
structure MayOwn (owner : Ty) : Prop where
  ground : owner.Ground
  applies : ∀ raw args outer, owner = .applied raw args outer →
    store.Knows raw ∧ args.length = (store.paramsOf raw).length

/-- All owners in a type are such.  Where there are any, `Object` has no parameters that one of them
could bind. -/
structure OwnersFit (ty : Ty) : Prop where
  mayOwn : ∀ owner ∈ ty.owners, store.MayOwn owner
  object : ty.owners = [] ∨ store.paramsOf store.wellKnown.object = []

/-- A type that is plain when its owners are dropped. -/
structure Owned (ty : Ty) : Prop where
  bare : store.Plain [] ty.withoutOwners
  fit : store.OwnersFit ty

/-- Types that are plain but for their owners, and wildcards with one such bound at most. -/
inductive OwnedArg : Ty → Prop
  | type {ty : Ty} (h : store.Owned ty) : OwnedArg ty
  | unbounded : OwnedArg .unbounded
  | extending {bound : Ty} (h : store.Owned bound) : OwnedArg (.extending bound)
  | superOf {bound : Ty} (h : store.Owned bound) : OwnedArg (.superOf bound)

variable {store} {ty arg : Ty}

lemma OwnersFit.of_subset {part : Ty} (h : store.OwnersFit ty) (hsub : part.owners ⊆ ty.owners) :
    store.OwnersFit part where
  mayOwn owner howner := h.mayOwn owner (hsub howner)
  object := h.object.imp_left fun hnone => by rwa [hnone, List.subset_nil] at hsub

lemma OwnersFit.of_nil (h : ty.owners = []) : store.OwnersFit ty where
  mayOwn := by simp [h]
  object := Or.inl h

mutual

theorem Plain.owners_eq_nil {own : List TypeVarId} {ty : Ty} : store.Plain own ty → ty.owners = []
  | .cls _ _ => rfl
  | .app _ _ hargs => by
    rw [Ty.app, Ty.owners, Ty.ownersOf, List.append_nil, List.eq_nil_iff_forall_not_mem]
    intro owner howner
    obtain ⟨arg, harg, howner⟩ := Ty.mem_ownersAll.mp howner
    rw [(hargs arg harg).owners_eq_nil] at howner
    exact absurd howner (by simp)
  | .var _ => rfl
  | .array h => h.owners_eq_nil
  | .primitives _ => rfl

/-- A plain type has no owners. -/
theorem PlainArg.owners_eq_nil {own : List TypeVarId} {ty : Ty} :
    store.PlainArg own ty → ty.owners = []
  | .type h => h.owners_eq_nil
  | .unbounded => rfl
  | .extending h => by
    simp [Ty.extending, Ty.owners, Ty.ownersAll, h.owners_eq_nil]
  | .superOf h => by
    simp [Ty.superOf, Ty.owners, Ty.ownersAll, h.owners_eq_nil]

end

lemma PlainArg.withoutOwners_eq {own : List TypeVarId} (h : store.PlainArg own arg) :
    arg.withoutOwners = arg :=
  arg.withoutOwners_eq_self h.owners_eq_nil

lemma Plain.withoutOwners_eq {own : List TypeVarId} (h : store.Plain own ty) :
    ty.withoutOwners = ty :=
  (PlainArg.type h).withoutOwners_eq

lemma Plain.owned (h : store.Plain [] ty) : store.Owned ty where
  bare := h.withoutOwners_eq.symm ▸ h
  fit := .of_nil h.owners_eq_nil

/-! ### Parts of a type -/

lemma OwnedArg.bare (h : store.OwnedArg arg) : store.PlainArg [] arg.withoutOwners := by
  cases h with
  | type h => exact .type h.bare
  | unbounded => exact .unbounded
  | extending h => exact .extending h.bare
  | superOf h => exact .superOf h.bare

lemma OwnedArg.fit (h : store.OwnedArg arg) : store.OwnersFit arg := by
  cases h with
  | type h => exact h.fit
  | unbounded => exact .of_nil rfl
  | extending h => exact h.fit.of_subset (by simp [Ty.owners_extending])
  | superOf h => exact h.fit.of_subset (by simp [Ty.owners_superOf])

lemma OwnedArg.of_bare (hbare : store.PlainArg [] arg.withoutOwners) (hfit : store.OwnersFit arg) :
    store.OwnedArg arg := by
  generalize heq : arg.withoutOwners = bare at hbare
  cases hbare with
  | type h => exact .type ⟨heq ▸ h, hfit⟩
  | unbounded => exact Ty.eq_unbounded_of_withoutOwners heq ▸ .unbounded
  | extending h =>
      obtain ⟨bound, rfl, rfl⟩ := Ty.exists_of_withoutOwners_eq_extending heq
      exact .extending ⟨h, hfit.of_subset (by simp [Ty.owners_extending])⟩
  | superOf h =>
      obtain ⟨bound, rfl, rfl⟩ := Ty.exists_of_withoutOwners_eq_superOf heq
      exact .superOf ⟨h, hfit.of_subset (by simp [Ty.owners_superOf])⟩

lemma OwnedArg.bound_of_extending {bound : Ty} (h : store.OwnedArg (.extending bound)) :
    store.Owned bound where
  bare := (show store.PlainArg [] (.extending bound.withoutOwners) from h.bare).bound_of_extending
  fit := h.fit.of_subset (by simp [Ty.owners_extending])

lemma OwnedArg.bound_of_superOf {bound : Ty} (h : store.OwnedArg (.superOf bound)) :
    store.Owned bound where
  bare := (show store.PlainArg [] (.superOf bound.withoutOwners) from h.bare).bound_of_superOf
  fit := h.fit.of_subset (by simp [Ty.owners_superOf])

lemma OwnedArg.ground (h : store.OwnedArg arg) : arg.Ground :=
  arg.ground_of_withoutOwners h.bare.ground fun owner howner => (h.fit.mayOwn owner howner).ground

lemma Owned.ground (h : store.Owned ty) : ty.Ground :=
  (OwnedArg.type h).ground

lemma Owned.isWildcard (h : store.Owned ty) : ty.isWildcard = false := by
  simpa using h.bare.isWildcard

lemma Owned.reference {id : ClassId} (h : store.Owned ty) (hraw : ty.rawClass? = some id) :
    store.Reference id :=
  h.bare.reference (by simpa using hraw)

lemma Owned.args_owned (h : store.Owned ty) : ∀ arg ∈ ty.args, store.OwnedArg arg := by
  intro arg harg
  refine .of_bare (h.bare.args_plain _ ?_) (h.fit.of_subset (Ty.owners_subset_of_mem_args harg))
  rw [Ty.args_withoutOwners]
  exact List.mem_map_of_mem harg

lemma Owned.length_args {raw : ClassId} {args : List Ty} {owner : Option Ty}
    (h : store.Owned (.applied raw args owner)) : args.length = (store.paramsOf raw).length := by
  have hbare := h.bare
  rw [Ty.withoutOwners, Ty.withoutOwnersAll_eq_map] at hbare
  simpa using hbare.length_args

lemma Owned.varsAll_args (h : store.Owned ty) : Ty.varsAll ty.args = [] :=
  Ty.varsAll_eq_nil.mpr fun arg harg => (h.args_owned arg harg).ground

/-- A type that is plain but for its owners is a class or an array. -/
lemma Owned.class_or_array (h : store.Owned ty) :
    (∃ id, ty.rawClass? = some id) ∨ ty.isArray = true := by
  simpa using h.bare.class_or_array

/-- The component of an array is of the same kind, unless it is a primitive. -/
lemma Owned.component {component : Ty} (h : store.Owned (.array component)) :
    store.Owned component ∨ ∃ id, store.wellKnown.isPrimitive id = true ∧ component = .cls id := by
  have hbare := h.bare
  rw [Ty.withoutOwners] at hbare
  generalize heq : component.withoutOwners = bare at hbare
  cases hbare with
  | array hplain => exact Or.inl ⟨heq ▸ hplain, h.fit.of_subset (List.Subset.refl _)⟩
  | primitives hid => exact Or.inr ⟨_, hid, Ty.withoutOwners_eq_cls_iff.mp heq⟩

/-! ### Bounds -/

lemma withoutOwners_upperOf (arg : Ty) :
    (store.upperOf arg).withoutOwners = store.upperOf arg.withoutOwners := by
  cases arg with
  | wildcard upper lower => cases upper <;> rfl
  | _ => rfl

lemma lowerOf?_withoutOwners (arg : Ty) :
    lowerOf? arg.withoutOwners = (lowerOf? arg).map Ty.withoutOwners := by
  cases arg with
  | wildcard upper lower => cases lower <;> rfl
  | _ => rfl

lemma Owned.upperOf_eq (h : store.Owned ty) : store.upperOf ty = ty := by
  have hnot := h.isWildcard
  cases ty with
  | wildcard => simp [Ty.isWildcard] at hnot
  | _ => rfl

lemma Owned.lowerOf?_eq (h : store.Owned ty) : lowerOf? ty = some ty := by
  have hnot := h.isWildcard
  cases ty with
  | wildcard => simp [Ty.isWildcard] at hnot
  | _ => rfl

lemma OwnedArg.upperOf_owned (hreg : store.Regular) (h : store.OwnedArg arg) :
    store.Owned (store.upperOf arg) := by
  cases h with
  | type h => exact h.upperOf_eq.symm ▸ h
  | unbounded => exact (hreg.object_plain []).owned
  | extending h => exact h
  | superOf => exact (hreg.object_plain []).owned

lemma OwnedArg.lowerOf?_owned {lower : Ty} (h : store.OwnedArg arg)
    (hlower : lowerOf? arg = some lower) : store.Owned lower := by
  cases h with
  | type h =>
      rw [h.lowerOf?_eq, Option.some.injEq] at hlower
      exact hlower ▸ h
  | unbounded => simp [lowerOf?, Ty.unbounded] at hlower
  | extending => simp [lowerOf?, Ty.extending] at hlower
  | superOf h =>
      simp only [lowerOf?, Ty.superOf, List.head?_cons, Option.some.injEq] at hlower
      exact hlower ▸ h

/-! ## The way up -/

/-- **The way up is the same without owners**, which are dropped from all that is found on it. -/
theorem Ascent.withoutOwners (hreg : store.Regular) (hedges : store.PlainEdges)
    {target id : ClassId} {args : List Ty} {levels : List (ClassId × List Ty)}
    (h : store.Ascent target id args levels)
    (htarget : store.wellKnown.isPrimitive target = false) (hid : store.Knows id)
    (hbelow : store.Below id target) :
    store.Ascent target id (args.map Ty.withoutOwners)
      (levels.map fun level => (level.1, level.2.map Ty.withoutOwners)) := by
  induction h with
  | arrive args => exact .arrive _
  | stop hne hnext => exact .stop hne hnext
  | @step id parent args edge levels hne hnext hraw hrest ih =>
      obtain ⟨decl, hdecl, hedge, hfits, hparent⟩ :=
        hreg.toWalkable.of_nextToward_raw hid htarget hne hbelow hnext hraw
      have hdropped := ih hfits.2.1.1 hparent
      refine .step hne hnext hraw ?_
      rw [List.map_map] at hdropped
      convert hdropped using 1
      refine List.map_congr_left fun written hwritten => ?_
      have hplain := (hedges id decl hdecl edge hedge written hwritten).withoutOwners_eq
      rw [Function.comp_apply, Ty.withoutOwners_subst, hplain]
      exact congrArg (Ty.subst · written) (funext fun v => assigning_map id args _ v)

lemma argsAt_withoutOwners (target : ClassId) (levels : List (ClassId × List Ty)) :
    argsAt target (levels.map fun level => (level.1, level.2.map Ty.withoutOwners)) =
      (argsAt target levels).map Ty.withoutOwners := by
  induction levels with
  | nil => rfl
  | cons level levels ih =>
      obtain ⟨id, args⟩ := level
      simp only [argsAt, List.map_cons, List.lookup_cons] at ih ⊢
      cases target == id with
      | true => rfl
      | false => exact ih

/-- All owners in what is found on the way up come from the arguments it starts with. -/
theorem Ascent.mem_owners (hreg : store.Regular) (hedges : store.PlainEdges)
    {target id : ClassId} {args : List Ty} {levels : List (ClassId × List Ty)}
    (h : store.Ascent target id args levels)
    (htarget : store.wellKnown.isPrimitive target = false) (hid : store.Knows id)
    (hbelow : store.Below id target) {owner : Ty} :
    ∀ level ∈ levels, owner ∈ Ty.ownersAll level.2 → owner ∈ Ty.ownersAll args := by
  induction h with
  | arrive args => simp
  | stop => simp
  | @step id parent args edge levels hne hnext hraw hrest ih =>
      obtain ⟨decl, hdecl, hedge, hfits, hparent⟩ :=
        hreg.toWalkable.of_nextToward_raw hid htarget hne hbelow hnext hraw
      intro level hlevel howner
      rcases List.mem_cons.mp hlevel with rfl | hlevel
      · exact howner
      obtain ⟨found, hfound, howner⟩ :=
        Ty.mem_ownersAll.mp (ih hfits.2.1.1 hparent level hlevel howner)
      obtain ⟨written, hwritten, rfl⟩ := List.mem_map.mp hfound
      have hplain := (hedges id decl hdecl edge hedge written hwritten).owners_eq_nil
      obtain ⟨v, arg, harg, howner⟩ := Ty.owners_subst written hplain howner
      exact Ty.mem_ownersAll.mpr ⟨arg, (mem_of_assigning harg).2, howner⟩

end Store

/-! ## What owners bind -/

namespace Ty

mutual

/-- The applied classes around a type, from the inside out: its owner, the owner of that, and so on.
Other owners have nothing to bind. -/
def ownersAround : Option Ty → List Ty
  | none => []
  | some owner => instancesFrom owner

/-- An applied class, and those around it. -/
def instancesFrom : Ty → List Ty
  | .applied raw args owner => .applied raw args owner :: ownersAround owner
  | _ => []

end

mutual

theorem ownersAround_subset : ∀ owner : Option Ty, ownersAround owner ⊆ ownersOf owner
  | none => List.Subset.refl _
  | some owner => instancesFrom_subset owner

theorem instancesFrom_subset : ∀ ty : Ty, instancesFrom ty ⊆ ty :: ty.owners
  | .applied _ _ owner =>
    List.cons_subset_cons _
      (List.Subset.trans (ownersAround_subset owner) (List.subset_append_right _ _))
  | .cls _ => by simp [instancesFrom]
  | .var _ => by simp [instancesFrom]
  | .wildcard _ _ => by simp [instancesFrom]
  | .array _ => by simp [instancesFrom]

end

end Ty

namespace Store

mutual

/-- What a walk binds at an owner. -/
def bindOwner (store : Store) : Option Ty → Bindings
  | none => .empty
  | some owner => store.bindInstance owner

/-- What an applied class binds: what its owner does, and then its own parameters. -/
def bindInstance (store : Store) : Ty → Bindings
  | .applied raw args owner => (store.bindOwner owner).bindAll (store.paramsOf raw) args
  | _ => .empty

end

/-- What is around a type can be walked. -/
lemma Owned.ownersAround {store : Store} {inner : ClassId} {given : List Ty} {owner : Option Ty}
    (h : store.Owned (.applied inner given owner)) (raw : ClassId) (args : List Ty)
    (outer : Option Ty) (hmem : Ty.applied raw args outer ∈ Ty.ownersAround owner) :
    store.Knows raw ∧ args.length = (store.paramsOf raw).length ∧ Ty.varsAll args = [] := by
  have howner := h.fit.mayOwn _ (List.mem_append_right _ (Ty.ownersAround_subset owner hmem))
  obtain ⟨hknown, hlength⟩ := howner.applies raw args outer rfl
  exact ⟨hknown, hlength, (Ty.ground_applied.mp howner.ground).1⟩

lemma Owned.knows_instances {store : Store} {ty : Ty} (h : store.Owned ty) (raw : ClassId)
    (args : List Ty) (owner : Option Ty) (hmem : Ty.applied raw args owner ∈ Ty.instancesFrom ty) :
    store.Knows raw := by
  rcases List.mem_cons.mp (Ty.instancesFrom_subset ty hmem) with rfl | howner
  · exact (h.reference rfl).1
  · exact ((h.fit.mayOwn _ howner).applies raw args owner rfl).1

/-- An owner binds no parameter of `Object`. -/
lemma Owned.get?_bindOwner {store : Store} {ty : Ty} (h : store.Owned ty) {v : TypeVarId}
    (hv : v ∈ store.paramsOf store.wellKnown.object) :
    (store.bindOwner ty.owner?).get? v = none := by
  rcases h.fit.object with hnone | hobject
  · have howner : ty.owner? = none := by
      cases ty with
      | applied raw args owner =>
          cases owner with
          | none => rfl
          | some outer => simp [Ty.owners, Ty.ownersOf] at hnone
      | _ => rfl
    rw [howner]
    exact Bindings.get?_empty v
  · rw [hobject] at hv
    cases hv

end Store

end JavaGenerics
