import JavaGenerics.Proofs.OwnedTypes
import JavaGenerics.Proofs.Walk

/-!
# Deciding under a limit

A question whose answer may not end is asked with a limit, and then it has three outcomes: yes, no,
and that the limit was met.  Two things are to be said of it: that yes and no are right, and that a
limit that is large enough is not met.

* `Checker.Yields` — a result is the given one, unless the limit stopped the program, which it did
  only under a given condition.
* `Checker.Decides` — the same for a result that decides a proposition.

The condition is what lets **one lemma serve both purposes**: with the condition `True` it says that
answers are right, and with a bound on the fuel it says how much fuel suffices.  The rest of the
file takes the rules of assignability one by one, as far as they do not recur:
`decides_assignWithin_cls` for targets without arguments, `yields_walkOwner` for owners and
`yields_walkWithin` for walks.  Types may have owners, and what is decided is whether they are
subtypes without them.
-/

namespace JavaGenerics

open Relation

namespace Checker

variable {α β : Type} {checker : Checker} {late : Prop}

/-! ## Three outcomes -/

/-- The result is `a`, unless the limit was met, which happens only where `late` holds. -/
def Yields (checker : Checker) (late : Prop) (result : Except DeclError α) (a : α) : Prop :=
  result = .ok a ∨ result = .error checker.tooDeep ∧ late

/-- The result tells whether `P` holds, unless the limit was met. -/
def Decides (checker : Checker) (late : Prop) (result : Except DeclError Bool) (P : Prop) : Prop :=
  ∃ b, checker.Yields late result b ∧ (b = true ↔ P)

lemma Yields.ok (a : α) : checker.Yields late (.ok a) a :=
  Or.inl rfl

lemma Yields.of_late {a : α} (h : late) : checker.Yields late (.error checker.tooDeep) a :=
  Or.inr ⟨rfl, h⟩

lemma Yields.mono {late' : Prop} {result : Except DeclError α} {a : α}
    (h : checker.Yields late result a) (himp : late → late') : checker.Yields late' result a :=
  h.imp_right fun ⟨herror, hlate⟩ => ⟨herror, himp hlate⟩

lemma Yields.bind {result : Except DeclError α} {a : α} {next : α → Except DeclError β} {b : β}
    (h : checker.Yields late result a) (hnext : checker.Yields late (next a) b) :
    checker.Yields late (result >>= next) b := by
  rcases h with rfl | ⟨rfl, hlate⟩
  · exact hnext
  · exact .of_late hlate

lemma Yields.map {result : Except DeclError α} {a : α} (f : α → β)
    (h : checker.Yields late result a) : checker.Yields late (result.map f) (f a) := by
  rcases h with rfl | ⟨rfl, hlate⟩
  · exact .ok _
  · exact .of_late hlate

lemma Yields.decides {result : Except DeclError Bool} {b : Bool} {P : Prop}
    (h : checker.Yields late result b) (hiff : b = true ↔ P) : checker.Decides late result P :=
  ⟨b, h, hiff⟩

lemma Decides.ok {b : Bool} {P : Prop} (hiff : b = true ↔ P) :
    checker.Decides late (.ok b) P :=
  (Yields.ok b).decides hiff

lemma Decides.of_late {P : Prop} (h : late) : checker.Decides late (.error checker.tooDeep) P := by
  classical
  exact (Yields.of_late h).decides (decide_eq_true_iff (p := P))

lemma Decides.mono {late' : Prop} {result : Except DeclError Bool} {P : Prop}
    (h : checker.Decides late result P) (himp : late → late') :
    checker.Decides late' result P := by
  obtain ⟨b, hb, hiff⟩ := h
  exact (hb.mono himp).decides hiff

lemma Decides.congr {result : Except DeclError Bool} {P Q : Prop}
    (h : checker.Decides late result P) (hiff : P ↔ Q) : checker.Decides late result Q :=
  propext hiff ▸ h

lemma Yields.bind_decides {result : Except DeclError α} {a : α}
    {next : α → Except DeclError Bool} {P : Prop} (h : checker.Yields late result a)
    (hnext : checker.Decides late (next a) P) : checker.Decides late (result >>= next) P := by
  obtain ⟨b, hb, hiff⟩ := hnext
  exact (h.bind hb).decides hiff

/-- One condition after the other: the second is asked only where the first holds. -/
lemma Decides.and {first second : Except DeclError Bool} {P Q : Prop}
    (h : checker.Decides late first P) (hsecond : P → checker.Decides late second Q) :
    checker.Decides late (first >>= fun b => if b = true then second else .ok false) (P ∧ Q) := by
  obtain ⟨b, hb, hiff⟩ := h
  refine hb.bind_decides ?_
  cases b with
  | true =>
      have hP : P := hiff.mp rfl
      simpa using (hsecond hP).congr (and_iff_right hP).symm
  | false =>
      have hP : ¬ P := fun hP => absurd (hiff.mpr hP) (by simp)
      simpa using Decides.ok (by simp [hP])

/-- A result that is right, and was not stopped. -/
lemma Decides.eq_ok_true {result : Except DeclError Bool} {P : Prop}
    (h : checker.Decides late result P) (hlate : ¬ late) (hP : P) : result = .ok true := by
  obtain ⟨b, rfl | ⟨-, habsurd⟩, hiff⟩ := h
  · rw [hiff.mpr hP]
  · exact absurd habsurd hlate

/-! ## Targets without arguments -/

/-- Comparing for equality first does no harm, for a plain type is a subtype of itself. -/
lemma decides_same_or {source target : Ty} (hsource : checker.store.Owned source)
    {rest : Query Bool}
    (h : checker.Decides late (checker.answer rest)
      (checker.store.Sub source.withoutOwners target.withoutOwners)) :
    checker.Decides late (checker.answer (if some source == some target then pure true else rest))
      (checker.store.Sub source.withoutOwners target.withoutOwners) := by
  by_cases hsame : source == target
  · have hself : checker.store.Sub source.withoutOwners target.withoutOwners :=
      Ty.beq_iff.mp hsame ▸ hsource.bare.sub_self
    simpa [hsame] using Decides.ok (by simp [hself])
  · simpa [hsame] using h

/-- The null type is assignable to everything but primitives, variables and wildcards. -/
lemma yields_assignWithin_none {target : Ty} (htarget : checker.store.Owned target)
    (fuel : Nat) :
    checker.Yields (fuel = 0)
      (checker.answer (checker.assignWithin fuel none target none)) true := by
  cases fuel with
  | zero => exact .of_late rfl
  | succ fuel =>
      cases target with
      | cls id =>
          have hprim : checker.isPrimitive id = false := (htarget.reference rfl).2
          simpa [assignWithin, assignStep, assignToClass, hprim] using Yields.ok true
      | wildcard => exact absurd htarget.isWildcard (by simp [Ty.isWildcard])
      | _ =>
          simpa [assignWithin, assignStep, assignToApplied, assignToArray, assignToVar] using
            Yields.ok true

/-- Assignability to a class takes one level. -/
lemma decides_assignWithin_cls (checker : Checker) (hreg : checker.store.Regular) {source : Ty}
    {target : ClassId} (hsource : checker.store.Owned source)
    (htarget : checker.store.wellKnown.isPrimitive target = false) (fuel : Nat) :
    checker.Decides (fuel = 0)
      (checker.answer (checker.assignWithin fuel (some source) (.cls target) none))
      (checker.store.Sub source.withoutOwners (.cls target)) := by
  cases fuel with
  | zero => exact .of_late rfl
  | succ fuel =>
      simp only [assignWithin, assignStep]
      change checker.Decides (fuel + 1 = 0) _
        (checker.store.Sub source.withoutOwners (Ty.cls target).withoutOwners)
      refine decides_same_or hsource ?_
      rw [Ty.withoutOwners]
      rcases hsource.class_or_array with ⟨id, hraw⟩ | harray
      · obtain ⟨hknown, hprim⟩ := hsource.reference hraw
        obtain ⟨b, hb, hiff⟩ := answer_classConverts hreg.nominal hknown hprim htarget
        have hraw' : source.withoutOwners.rawClass? = some id := by simpa using hraw
        rw [Store.sub_cls_iff hraw', ← hiff]
        cases source with
        | cls => cases hraw; rw [assignToClass, hb]; exact .ok Iff.rfl
        | applied => cases hraw; rw [assignToClass, hb]; exact .ok Iff.rfl
        | _ => simp [Ty.rawClass?] at hraw
      · cases source with
        | array component =>
            rw [assignToClass, Ty.withoutOwners, Store.sub_array_cls_iff,
              Ty.isGenericComponent_withoutOwners]
            by_cases hgeneric : component.isGenericComponent
            · simpa [hgeneric] using Decides.ok (by simp)
            · simp only [hgeneric, Bool.false_eq_true, if_false, answer_pure]
              exact .ok (by simp [WellKnown.holdsArrays, or_assoc])
        | _ => simp [Ty.isArray] at harray

/-! ## Walks -/

/-- Arguments without variables are bound as they are, or the limit is met. -/
lemma yields_bindArguments (checker : Checker) (fuel : Nat) {params : List TypeVarId}
    {args : List Ty} (hlength : params.length = args.length) (hargs : Ty.varsAll args = [])
    (before map : Bindings) :
    checker.Yields (fuel < Ty.nestingAll args)
      (checker.bindArguments fuel before params args map) (map.bindAll params args) := by
  by_cases hfuel : Ty.nestingAll args ≤ fuel
  · rw [checker.bindArguments_ground hlength hargs hfuel]
    exact .ok _
  · rw [bindArguments_eq checker fuel before params args map hlength (by simp [Resolves, hargs])
      (by simp [hargs]), if_neg hfuel]
    exact .of_late (by omega)

/-- **A walk makes the bindings of the levels**, given enough fuel for the classes on the way and
for arguments nested `n` deep. -/
theorem yields_walkWithin_of_applies (checker : Checker) (hwalk : checker.store.Walkable)
    {map : Bindings} {subject : Ty} {id target : ClassId} {args : List Ty}
    {levels : List (ClassId × List Ty)} (happlies : checker.store.Applies map subject id args)
    (htarget : checker.isPrimitive target = false) (hbelow : checker.store.Below id target)
    (hascent : checker.store.Ascent target id args levels) (fuel : Nat) {n : Nat}
    (hnesting : Ty.nestingAll subject.args ≤ n + 1)
    (hedges : Ty.deepest checker.store.edgeArgs ≤ n) :
    checker.Yields (fuel ≤ checker.store.size + n)
      (checker.answer (checker.walkWithin fuel subject target map))
      (some (checker.store.bindLevels map levels)) := by
  have hid := happlies.fits.2.1.1
  obtain ⟨levels', hlevels', hcount⟩ :=
    hwalk.exists_ascent htarget _ args (Nat.lt_succ_self _) hid hbelow
  rw [hlevels'.unique hascent] at hcount
  have hheight := hwalk.height_lt_size hid
  refine (answer_walkWithin hwalk htarget
    (fun _ _ hdecl _ hedge =>
      (Store.nestingAll_edge_le hdecl hedge).trans (Nat.succ_le_succ hedges))
    hascent hbelow fuel map subject happlies hnesting).imp_right fun ⟨herror, hlt⟩ => ⟨herror, ?_⟩
  omega

/-- **An owner binds its own arguments**, after those of the owner it has itself.  Owners that are
not applied are not even looked at. -/
theorem yields_walkOwner (checker : Checker) : ∀ (fuel : Nat) (owner : Option Ty),
    (∀ raw args outer, Ty.applied raw args outer ∈ Ty.ownersAround owner →
      checker.store.Knows raw ∧ args.length = (checker.store.paramsOf raw).length ∧
        Ty.varsAll args = []) →
    checker.Yields (fuel < Ty.nestingOwner owner)
      (checker.answer (walkOwner (checker.walkWithin fuel) owner .empty))
      (checker.store.bindOwner owner)
  | _, none, _ => .ok _
  | _, some (.cls _), _ => .ok _
  | _, some (.var _), _ => .ok _
  | _, some (.wildcard _ _), _ => .ok _
  | _, some (.array _), _ => .ok _
  | 0, some (.applied _ _ _), _ => .of_late (Nat.succ_pos _)
  | fuel + 1, some (.applied raw args outer), h => by
    simp only [Ty.ownersAround, Ty.instancesFrom, List.mem_cons] at h
    obtain ⟨⟨decl, hdecl⟩, hlength, hground⟩ := h raw args outer (Or.inl rfl)
    have hparams : decl.params = checker.store.paramsOf raw := (Store.paramsOf_eq hdecl).symm
    have hconverts : checker.answer (checker.classConverts raw raw) = .ok true := by
      simp [classConverts]
    have houter := (yields_walkOwner checker fuel outer fun raw args owner hmem =>
      h raw args owner (Or.inr hmem)).mono
        fun hlate => show fuel + 1 < Ty.nestingOwner (some (.applied raw args outer)) by
          rw [Ty.nestingOwner, Ty.nesting]
          omega
    have hown (before : Bindings) :=
      (checker.yields_bindArguments fuel hlength.symm hground before before).mono
        fun hlate => show fuel + 1 < Ty.nestingOwner (some (.applied raw args outer)) by
          rw [Ty.nestingOwner, Ty.nesting]
          omega
    have hself (before : Bindings) :
        checker.answer (checker.walkWithin (fuel + 1) (.app raw args) raw before) =
          (checker.bindArguments fuel before (checker.store.paramsOf raw) args before).map
            some := by
      rw [← hparams]
      exact checker.answer_walkWithin_own hdecl (hparams ▸ hlength) (by simp) fuel before
    have hfound : checker.Yields (fuel + 1 < Ty.nestingOwner (some (.applied raw args outer)))
        (checker.answer
          (checker.walkWithin (fuel + 1) (.applied raw args outer) raw .empty))
        (some (checker.store.bindOwner (some (.applied raw args outer)))) := by
      rw [checker.answer_walkWithin_owned hconverts]
      refine houter.bind ?_
      rw [hself]
      exact (hown _).map some
    rw [walkOwner, answer_bind]
    exact hfound.bind (.ok _)

end Checker

/-- Levels that suffice for every walk from a type: one for each class that may be passed, and as
many as arguments and owners are nested. -/
def Store.walkDepth (store : Store) (ty : Ty) : Nat :=
  store.size + max (Ty.deepest ty.args) (Ty.deepest store.edgeArgs) + Ty.nestingOwner ty.owner? + 1

lemma Store.Regular.eq_object {store : Store} (hreg : store.Regular) {target : ClassId}
    (h : store.Below store.wellKnown.object target) : target = store.wellKnown.object := by
  rcases h with rfl | rfl | hpath
  · rfl
  · rfl
  · obtain ⟨parent, ⟨decl, hdecl, edge, hedge, -⟩, -⟩ := TransGen.head'_iff.mp hpath
    obtain ⟨hsuper, hinterfaces⟩ := hreg.object_top decl hdecl
    simp [Store.mem_supertypes, hsuper, hinterfaces] at hedge

namespace Checker

variable {checker : Checker} {late : Prop}

/-- A class that is walked from without arguments to itself binds nothing. -/
lemma answer_walkWithin_self {id : ClassId} (hid : checker.isPrimitive id = false) (fuel : Nat)
    (map : Bindings) :
    checker.answer (checker.walkWithin (fuel + 1) (.cls id) id map) = .ok (some map) := by
  have hprim : checker.store.wellKnown.primitive? id = none := by
    simpa [isPrimitive, WellKnown.isPrimitive] using hid
  have hconverts : checker.answer (checker.classConverts id id) = .ok true := by
    simp [classConverts]
  simp [walkWithin, walkStep, walkClass, hconverts, hprim]

/-- A walk to a class above makes the bindings of the levels on the way, after those of owners. -/
lemma yields_walkWithin (hreg : checker.store.Regular) {source : Ty} {id target : ClassId}
    (hsource : checker.store.Owned source) (hraw : source.rawClass? = some id)
    (htarget : checker.isPrimitive target = false) (hbelow : checker.store.Below id target)
    {levels : List (ClassId × List Ty)}
    (hlevels : checker.store.Ascent target id source.args levels) (fuel : Nat) :
    checker.Yields (fuel < checker.store.walkDepth source)
      (checker.answer (checker.walkWithin fuel source target .empty))
      (some (checker.store.bindLevels (checker.store.bindOwner source.owner?) levels)) := by
  have hground := hsource.varsAll_args
  rcases hsource.bare.cases_class (by simpa using hraw) with ⟨⟨-, hid, -, hlength⟩, -⟩ | ⟨heq, rfl⟩
  · rw [Ty.args_withoutOwners, List.length_map] at hlength
    have hwalk (subject : Ty) (hsubject : subject.rawClass? = some id)
        (hnone : subject.owner? = none) (hargs : subject.args = source.args) (map : Bindings) :=
      (checker.yields_walkWithin_of_applies hreg
        (.of_ground ⟨hsubject, hid, hnone, by rwa [hargs]⟩ (by rwa [hargs]) map) htarget hbelow
        (by rwa [hargs]) fuel
        (n := max (Ty.deepest source.args) (Ty.deepest checker.store.edgeArgs))
        (by rw [hargs]; exact (Ty.nestingAll_le_deepest _).trans (by omega)) (by omega)).mono
          fun hlate => show fuel < checker.store.walkDepth source by
            rw [Store.walkDepth]
            omega
    cases source with
    | cls raw => exact hwalk (.cls raw) hraw rfl rfl .empty
    | applied raw args owner =>
        obtain rfl := Option.some.inj hraw
        obtain ⟨leads, hleads, hiff⟩ := answer_classConverts hreg.nominal hid.1 hid.2 htarget
        rw [hiff.mpr hbelow] at hleads
        cases fuel with
        | zero => exact .of_late (by simp [Store.walkDepth])
        | succ fuel =>
            rw [checker.answer_walkWithin_owned hleads]
            refine ((checker.yields_walkOwner fuel owner hsource.ownersAround).mono
              fun hlate => ?_).bind (hwalk (.app raw args) rfl rfl rfl _)
            rw [Store.walkDepth, Ty.owner?]
            omega
    | _ => simp [Ty.rawClass?] at hraw
  · obtain rfl := Ty.withoutOwners_eq_cls_iff.mp heq
    have hself := hreg.eq_object hbelow
    subst hself
    cases hlevels with
    | stop hne => exact absurd rfl hne
    | step hne => exact absurd rfl hne
    | arrive =>
        simp only [Store.bindLevels, Ty.args, Bindings.bindAll_nil]
        cases fuel with
        | zero => exact .of_late (by simp [Store.walkDepth])
        | succ fuel =>
            rw [answer_walkWithin_self hreg.object_reference.2]
            exact .ok _

/-- A walk from a class to one that is not above finds nothing. -/
lemma yields_walkWithin_none (hreg : checker.store.Regular) {source : Ty} {id target : ClassId}
    (hid : checker.store.Reference id) (hraw : source.rawClass? = some id)
    (htarget : checker.isPrimitive target = false) (hbelow : ¬ checker.store.Below id target)
    (fuel : Nat) :
    checker.Yields (fuel < checker.store.walkDepth source)
      (checker.answer (checker.walkWithin fuel source target .empty)) none := by
  cases fuel with
  | zero => exact .of_late (by simp [Store.walkDepth])
  | succ fuel =>
      rw [answer_walkWithin_of_not_below hreg.nominal fuel hraw hid htarget hbelow]
      exact .ok none

end Checker

end JavaGenerics
