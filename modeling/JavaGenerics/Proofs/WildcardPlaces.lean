import JavaGenerics.Arguments
import JavaGenerics.Proofs.Chains
import JavaGenerics.Proofs.Ways
import JavaGenerics.Store.Stock

/-!
# Places where wildcards may stand

A wildcard stands for the argument of an applied class.  It is no component of an array, no bound of
another wildcard and no owner.  A variable may stand in all these places, though, and what it is
replaced by may be a wildcard: seen from a `List<?>`, the type `E[]` is the array of a wildcard.

* `Ty.wellPlaced` — neither a wildcard nor one of the given variables stands where a wildcard may
  not.  `Ty.isLegal` is the same without any variables.
* `Store.admits` — a type passes wildcards, and the given variables, to the given variables only.
* `Checker.isLegal_eq_of_substWithin` — **what comes out is legal exactly if no variable that stands
  for a wildcard is misplaced in what goes in.**
* `Checker.isLegal_of_seenFrom` — so it is if the variables that may ever stand for a wildcard are
  not misplaced.
-/

namespace JavaGenerics

open Relation

namespace Ty

/-! ## Well-placed wildcards -/

/-- Whether the type is a wildcard, or a variable that may stand for one. -/
def mayBeWildcard (wild : TypeVarId → Bool) : Ty → Bool
  | .wildcard _ _ => true
  | .var v => wild v
  | _ => false

mutual

/-- Whether nothing that may be a wildcard is the component of an array, the bound of a wildcard or
the owner of an applied class. -/
def wellPlaced (wild : TypeVarId → Bool) : Ty → Bool
  | .cls _ => true
  | .applied _ args owner => wellPlacedAll wild args && wellPlacedOwner wild owner
  | .var _ => true
  | .wildcard upper lower =>
    !upper.any (mayBeWildcard wild) && !lower.any (mayBeWildcard wild) &&
      (wellPlacedAll wild upper && wellPlacedAll wild lower)
  | .array component => !component.mayBeWildcard wild && wellPlaced wild component

def wellPlacedAll (wild : TypeVarId → Bool) : List Ty → Bool
  | [] => true
  | ty :: rest => wellPlaced wild ty && wellPlacedAll wild rest

def wellPlacedOwner (wild : TypeVarId → Bool) : Option Ty → Bool
  | none => true
  | some owner => !owner.mayBeWildcard wild && wellPlaced wild owner

end

/-- Whether no wildcard is the component of an array, the bound of a wildcard or the owner of an
applied class: apart from the type itself, wildcards are arguments. -/
def isLegal (ty : Ty) : Bool :=
  ty.wellPlaced fun _ => false

lemma mayBeWildcard_false (ty : Ty) : ty.mayBeWildcard (fun _ => false) = ty.isWildcard := by
  cases ty <;> rfl

lemma mayBeWildcard_mono {wild wild' : TypeVarId → Bool} (h : ∀ v, wild v = true → wild' v = true)
    {ty : Ty} (hty : ty.mayBeWildcard wild = true) : ty.mayBeWildcard wild' = true := by
  cases ty with
  | var v => exact h v hty
  | _ => exact hty

lemma mayBeWildcard_anti {wild wild' : TypeVarId → Bool} (h : ∀ v, wild v = true → wild' v = true)
    {ty : Ty} (hty : ty.mayBeWildcard wild' = false) : ty.mayBeWildcard wild = false :=
  Bool.eq_false_iff.mpr fun hwild => absurd (mayBeWildcard_mono h hwild) (by simp [hty])

lemma any_mayBeWildcard_anti {wild wild' : TypeVarId → Bool}
    (h : ∀ v, wild v = true → wild' v = true) {types : List Ty}
    (htypes : types.any (mayBeWildcard wild') = false) :
    types.any (mayBeWildcard wild) = false := by
  rw [List.any_eq_false] at htypes ⊢
  exact fun ty hty hwild => htypes ty hty (mayBeWildcard_mono h hwild)

mutual

/-- The fewer variables may be wildcards, the more types are well placed. -/
theorem wellPlaced_mono {wild wild' : TypeVarId → Bool} (h : ∀ v, wild v = true → wild' v = true) :
    ∀ ty : Ty, ty.wellPlaced wild' = true → ty.wellPlaced wild = true
  | .cls _, _ => rfl
  | .var _, _ => rfl
  | .applied _ args owner, hty => by
    simp only [wellPlaced, Bool.and_eq_true] at hty ⊢
    exact ⟨wellPlacedAll_mono h args hty.1, wellPlacedOwner_mono h owner hty.2⟩
  | .wildcard upper lower, hty => by
    simp only [wellPlaced, Bool.and_eq_true, Bool.not_eq_true'] at hty ⊢
    exact ⟨⟨any_mayBeWildcard_anti h hty.1.1, any_mayBeWildcard_anti h hty.1.2⟩,
      wellPlacedAll_mono h upper hty.2.1, wellPlacedAll_mono h lower hty.2.2⟩
  | .array component, hty => by
    simp only [wellPlaced, Bool.and_eq_true, Bool.not_eq_true'] at hty ⊢
    exact ⟨mayBeWildcard_anti h hty.1, wellPlaced_mono h component hty.2⟩

theorem wellPlacedAll_mono {wild wild' : TypeVarId → Bool}
    (h : ∀ v, wild v = true → wild' v = true) :
    ∀ types : List Ty, wellPlacedAll wild' types = true → wellPlacedAll wild types = true
  | [], _ => rfl
  | ty :: rest, htypes => by
    simp only [wellPlacedAll, Bool.and_eq_true] at htypes ⊢
    exact ⟨wellPlaced_mono h ty htypes.1, wellPlacedAll_mono h rest htypes.2⟩

theorem wellPlacedOwner_mono {wild wild' : TypeVarId → Bool}
    (h : ∀ v, wild v = true → wild' v = true) :
    ∀ owner : Option Ty, wellPlacedOwner wild' owner = true → wellPlacedOwner wild owner = true
  | none, _ => rfl
  | some owner, howner => by
    simp only [wellPlacedOwner, Bool.and_eq_true, Bool.not_eq_true'] at howner ⊢
    exact ⟨mayBeWildcard_anti h howner.1, wellPlaced_mono h owner howner.2⟩

end

/-! ## Wildcards that are put in -/

/-- A type becomes a wildcard exactly if it is one or a wildcard is put in for it. -/
lemma isWildcard_subst (σ : TypeVarId → Option Ty) (ty : Ty) :
    (subst σ ty).isWildcard = ty.mayBeWildcard fun v => (σ v).any isWildcard := by
  cases ty with
  | var v => cases hv : σ v <;> simp [subst, mayBeWildcard, isWildcard, hv]
  | _ => rfl

lemma any_mayBeWildcard_substAll (σ : TypeVarId → Option Ty) (types : List Ty) :
    (substAll σ types).any (mayBeWildcard fun _ => false) =
      types.any (mayBeWildcard fun v => (σ v).any isWildcard) := by
  rw [substAll_eq_map, List.any_map]
  congr 1
  funext ty
  exact (mayBeWildcard_false _).trans (isWildcard_subst σ ty)

mutual

/-- Where legal types are put in, a type becomes legal exactly if no wildcard is put in for a
misplaced variable. -/
theorem wellPlaced_subst {σ : TypeVarId → Option Ty}
    (h : ∀ v ty, σ v = some ty → ty.isLegal = true) : ∀ ty : Ty,
    (subst σ ty).wellPlaced (fun _ => false) = ty.wellPlaced fun v => (σ v).any isWildcard
  | .cls _ => rfl
  | .var v => by
    cases hv : σ v with
    | none => simp [subst, wellPlaced, hv]
    | some ty => simpa [subst, wellPlaced, isLegal, hv] using h v ty hv
  | .applied _ args owner => by
    rw [subst, wellPlaced, wellPlaced, wellPlacedAll_substAll h args,
      wellPlacedOwner_substOwner h owner]
  | .wildcard upper lower => by
    rw [subst, wellPlaced, wellPlaced, any_mayBeWildcard_substAll, any_mayBeWildcard_substAll,
      wellPlacedAll_substAll h upper, wellPlacedAll_substAll h lower]
  | .array component => by
    rw [subst, wellPlaced, wellPlaced, mayBeWildcard_false, isWildcard_subst,
      wellPlaced_subst h component]

theorem wellPlacedAll_substAll {σ : TypeVarId → Option Ty}
    (h : ∀ v ty, σ v = some ty → ty.isLegal = true) : ∀ types : List Ty,
    wellPlacedAll (fun _ => false) (substAll σ types) =
      wellPlacedAll (fun v => (σ v).any isWildcard) types
  | [] => rfl
  | ty :: rest => by
    rw [substAll, wellPlacedAll, wellPlacedAll, wellPlaced_subst h ty,
      wellPlacedAll_substAll h rest]

theorem wellPlacedOwner_substOwner {σ : TypeVarId → Option Ty}
    (h : ∀ v ty, σ v = some ty → ty.isLegal = true) : ∀ owner : Option Ty,
    wellPlacedOwner (fun _ => false) (substOwner σ owner) =
      wellPlacedOwner (fun v => (σ v).any isWildcard) owner
  | none => rfl
  | some owner => by
    rw [substOwner, wellPlacedOwner, wellPlacedOwner, mayBeWildcard_false, isWildcard_subst,
      wellPlaced_subst h owner]

end

end Ty

namespace Checker

variable (checker : Checker)

/-! ## What is put in -/

/-- Whether a variable is replaced by a wildcard. -/
def standsForWildcard (map : Bindings) (v : TypeVarId) : Bool :=
  (checker.replaceVar v map).toOption.any Ty.isWildcard

/-- The bindings bind variables to legal types only. -/
def LegalBindings (map : Bindings) : Prop :=
  ∀ v ty, map.get? v = some ty → ty.isLegal = true

variable {checker} {map : Bindings}

lemma standsForWildcard_eq {v : TypeVarId} {ty : Ty} (h : checker.replaceVar v map = .ok ty) :
    checker.standsForWildcard map v = ty.isWildcard := by
  simp [standsForWildcard, h, Except.toOption]

lemma isLegal_of_replaceVar (hmap : LegalBindings map) {v : TypeVarId} {ty : Ty}
    (h : checker.replaceVar v map = .ok ty) : ty.isLegal = true := by
  obtain ⟨last, -, ⟨-, rfl⟩ | ⟨hlast, -⟩⟩ := checker.exists_last_of_replaceVar h
  · rfl
  · exact hmap last ty hlast

/-- **Replacing variables makes a legal type exactly of a type in which no variable that stands for
a wildcard is misplaced**, given that what is put in is legal. -/
theorem isLegal_eq_of_substWithin (hmap : LegalBindings map) (ty : Ty) {depth : Nat} {value : Ty}
    (h : checker.substWithin map depth ty = .ok value) :
    value.wellPlaced (fun _ => false) = ty.wellPlaced (checker.standsForWildcard map) := by
  have hlegal : ∀ v ty, checker.standIn map v = some ty → ty.isLegal = true := fun _ _ hty =>
    isLegal_of_replaceVar hmap (standIn_eq_some_iff.mp hty)
  rw [eq_subst_of_substWithin h]
  exact Ty.wellPlaced_subst hlegal ty

end Checker

/-! ## What is passed -/

namespace Store

variable (store : Store)

/-- Whether an applied class passes whatever may be a wildcard to the given variables only, and its
arguments are well placed. -/
def admitsArgs (wild : TypeVarId → Bool) (raw : ClassId) (args : List Ty) : Bool :=
  args.all (Ty.wellPlaced wild) &&
    (store.class? raw).all fun decl =>
      (decl.params.zip args).all fun entry => !entry.2.mayBeWildcard wild || wild entry.1

/-- Whether a type is no wildcard, and all applied classes in it are admitted. -/
def admits (wild : TypeVarId → Bool) (ty : Ty) : Bool :=
  !ty.isWildcard && ty.applications.all fun app => store.admitsArgs wild app.1 app.2

/-- Whether all declared supertypes and all bounds of variables are admitted. -/
def admitsDeclared (wild : TypeVarId → Bool) : Bool :=
  (store.classes.toList.all fun decl => decl.edges.supertypes.all (store.admits wild)) &&
    store.params.toList.all fun param => param.bounds.all (store.admits wild)

variable {store} {wild : TypeVarId → Bool}

lemma admits_supertype (h : store.admitsDeclared wild = true) {id : ClassId} {decl : ClassDecl}
    (hdecl : store.class? id = some decl) {edge : Ty} (hedge : edge ∈ decl.edges.supertypes) :
    store.admits wild edge = true := by
  simp only [admitsDeclared, Bool.and_eq_true, List.all_eq_true] at h
  exact h.1 decl (Array.mem_toList_iff.mpr (Array.mem_of_getElem? hdecl)) edge hedge

lemma admits_bound (h : store.admitsDeclared wild = true) {v : TypeVarId} {param : TypeParam}
    (hparam : store.param? v = some param) {bound : Ty} (hbound : bound ∈ param.bounds) :
    store.admits wild bound = true := by
  simp only [admitsDeclared, Bool.and_eq_true, List.all_eq_true] at h
  exact h.2 param (Array.mem_toList_iff.mpr (Array.mem_of_getElem? hparam)) bound hbound

end Store

namespace Checker

variable {checker : Checker} {wild : TypeVarId → Bool}

/-- The bounds of an admitted type are admitted, be they declared or `Object`. -/
lemma admits_of_boundsOf (hstore : checker.store.admitsDeclared wild = true) {subject : Ty}
    (hsubject : checker.store.admits wild subject = true) {bounds : List Ty}
    (hbounds : checker.boundsOf? subject = some bounds) :
    ∀ bound ∈ bounds, checker.store.admits wild bound = true := by
  cases subject with
  | var v =>
      cases hparam : checker.store.param? v with
      | none =>
          simp [boundsOf?, varBounds, Store.knownParam, hparam, Except.toOption] at hbounds
      | some param =>
          simp only [boundsOf?, varBounds, Store.knownParam, hparam, ok_bind, pure_eq_ok,
            Except.toOption, Option.some.injEq] at hbounds
          subst hbounds
          unfold Store.boundsOrObject
          split
          · exact List.forall_mem_singleton.mpr rfl
          · exact fun bound hbound => Store.admits_bound hstore hparam hbound
  | wildcard upper lower => simp [Store.admits, Ty.isWildcard] at hsubject
  | _ => simp [boundsOf?] at hbounds

/-- **A way leads from an admitted type to admitted types only.** -/
lemma Way.admits (hstore : checker.store.admitsDeclared wild = true) {target : ClassId}
    {subject : Ty} {way : List Ty} (h : checker.Way target subject way)
    (hsubject : checker.store.admits wild subject = true) :
    ∀ ty ∈ way, checker.store.admits wild ty = true := by
  refine h.forall_mem hsubject fun ty next hty hnext => ?_
  cases hnext with
  | parent hclass hne hparent =>
      obtain ⟨decl, hdecl, hedge, -⟩ := checker.mem_of_nextToward hparent
      exact Store.admits_supertype hstore hdecl hedge
  | bound hbounds => exact admits_of_boundsOf hstore hty hbounds _ (by simp)

/-! ## What is bound -/

/-- Variables are bound to legal types, and to what may be a wildcard only if they are among the
given ones. -/
structure KeepsWild (wild : TypeVarId → Bool) (map : Bindings) : Prop where
  legal : LegalBindings map
  wild_of_get? : ∀ v ty, map.get? v = some ty → ty.mayBeWildcard wild = true → wild v = true

variable {map : Bindings}

lemma keepsWild_empty : KeepsWild wild .empty :=
  ⟨by simp [LegalBindings], by simp⟩

/-- What may be a wildcard is at the end of such chains only that start at a given variable. -/
lemma KeepsWild.wild_of_replaceVar (hmap : KeepsWild wild map) {v : TypeVarId} {ty : Ty}
    (h : checker.replaceVar v map = .ok ty) (hty : ty.mayBeWildcard wild = true) :
    wild v = true := by
  obtain ⟨last, hpath, hend⟩ := checker.exists_last_of_replaceVar h
  have hlast : wild last = true := by
    rcases hend with ⟨-, rfl⟩ | ⟨hlast, -⟩
    · exact hty
    · exact hmap.wild_of_get? last ty hlast hty
  clear h
  induction hpath using ReflTransGen.head_induction_on with
  | refl => exact hlast
  | head hstep _ ih => exact hmap.wild_of_get? _ _ hstep ih

lemma KeepsWild.wild_of_stands (hmap : KeepsWild wild map) {v : TypeVarId}
    (h : checker.standsForWildcard map v = true) : wild v = true := by
  cases hreplaced : checker.replaceVar v map with
  | error e => simp [standsForWildcard, hreplaced, Except.toOption] at h
  | ok ty =>
      rw [standsForWildcard_eq hreplaced] at h
      refine hmap.wild_of_replaceVar hreplaced ?_
      cases ty with
      | wildcard => rfl
      | _ => simp [Ty.isWildcard] at h

/-- What is put in may be a wildcard only if what it is put in for may be. -/
lemma KeepsWild.mayBeWildcard_of_substWithin (hmap : KeepsWild wild map) {depth : Nat}
    {ty value : Ty} (h : checker.substWithin map depth ty = .ok value)
    (hvalue : value.mayBeWildcard wild = true) : ty.mayBeWildcard wild = true := by
  cases ty with
  | var v => exact hmap.wild_of_replaceVar (checker.replaceVar_of_substWithin h) hvalue
  | _ =>
      rw [eq_subst_of_substWithin h] at hvalue
      exact hvalue

lemma KeepsWild.record (hmap : KeepsWild wild map) {passed : List Passing}
    (hpassed : ∀ passing ∈ passed, passing.value.isLegal = true ∧
      (passing.value.mayBeWildcard wild = true → wild passing.param = true)) :
    KeepsWild wild (map.record passed) := by
  have hget (v : TypeVarId) (ty : Ty) (h : (map.record passed).get? v = some ty) :
      ty.isLegal = true ∧ (ty.mayBeWildcard wild = true → wild v = true) := by
    rw [Bindings.get?_record] at h
    cases hlast : lastPassed passed v with
    | none =>
        have hbefore : map.get? v = some ty := by simpa [hlast] using h
        exact ⟨hmap.legal v ty hbefore, hmap.wild_of_get? v ty hbefore⟩
    | some last =>
        obtain ⟨hmem, rfl⟩ := param_of_lastPassed hlast
        obtain rfl : last.value = ty := by simpa [hlast] using h
        exact hpassed last hmem
  exact ⟨fun v ty h => (hget v ty h).1, fun v ty h => (hget v ty h).2⟩

/-- An applied class that is admitted binds its parameters to nothing else. -/
lemma Passes.keepsWild {raw : ClassId} {args : List Ty} {passed : List Passing}
    (h : checker.Passes map raw args passed)
    (hargs : checker.store.admitsArgs wild raw args = true) (hmap : KeepsWild wild map) :
    KeepsWild wild (map.record passed) := by
  obtain ⟨decl, hdecl, -, hpassed⟩ := h.declared
  simp only [Store.admitsArgs, hdecl, Option.all_some, Bool.and_eq_true, List.all_eq_true,
    Bool.or_eq_true, Bool.not_eq_true'] at hargs
  refine hmap.record fun passing hmem => ?_
  obtain ⟨rfl, depth, hvalue⟩ := h.replaced passing hmem
  have hentry : (passing.param, passing.arg) ∈ decl.params.zip args := by
    have hmapped := List.mem_map_of_mem (f := fun p : Passing => (p.param, p.arg)) hmem
    rw [hpassed] at hmapped
    exact (List.mem_filter.mp hmapped).1
  constructor
  · rw [Ty.isLegal, isLegal_eq_of_substWithin hmap.legal passing.arg hvalue]
    exact Ty.wellPlaced_mono (fun v => hmap.wild_of_stands) passing.arg
      (hargs.1 passing.arg (List.of_mem_zip hentry).2)
  · intro hwild
    rcases hargs.2 _ hentry with hno | hyes
    · rw [hmap.mayBeWildcard_of_substWithin hvalue hwild] at hno
      cases hno
    · exact hyes

/-- **So do all of them together.** -/
lemma PassedOn.keepsWild {apps : List (ClassId × List Ty)} {passed : List Passing}
    (h : checker.PassedOn map apps passed)
    (happs : ∀ app ∈ apps, checker.store.admitsArgs wild app.1 app.2 = true)
    (hmap : KeepsWild wild map) : KeepsWild wild (map.record passed) := by
  induction h with
  | nil => exact hmap
  | cons hfirst hrest ih =>
      obtain ⟨hargs, happs'⟩ := List.forall_mem_cons.mp happs
      rw [Bindings.record_append]
      exact ih happs' (hfirst.keepsWild hargs hmap)

/-- What a walk from an admitted type finds is legal, and keeps wildcards to the given variables. -/
lemma keepsWild_of_viewAs (hstore : checker.store.admitsDeclared wild = true) {subject : Ty}
    (hsubject : checker.store.admits wild subject = true) {target : ClassId}
    (h : checker.answer (checker.viewAs subject target .empty) = .ok (some map)) :
    KeepsWild wild map := by
  rcases checker.outcome_of_walkWithin target _ subject .empty map h with
    ⟨-, rfl⟩ | ⟨way, passed, hway, hpassed, rfl⟩
  · exact keepsWild_empty
  · refine hpassed.keepsWild (fun app happ => ?_) keepsWild_empty
    obtain ⟨ty, hty, happ⟩ := List.mem_flatMap.mp happ
    have hadmits := hway.admits hstore hsubject ty hty
    simp only [Store.admits, Bool.and_eq_true, List.all_eq_true] at hadmits
    exact hadmits.2 app happ

/-! ## What is seen -/

/-- **Wildcards stay where they may stand, if no variable is misplaced that may stand for one.**
The given variables are those that may: the context, all declared supertypes and all bounds of
variables pass wildcards, and these variables, to these variables only, and misplace neither.

Whatever the expression is, it is seen as a legal type exactly if none of the variables that do
stand for a wildcard is misplaced in it. -/
theorem isLegal_of_seenFrom (checker : Checker) {wild : TypeVarId → Bool}
    (hstore : checker.store.admitsDeclared wild = true) {context : Ty}
    (hcontext : checker.store.admits wild context = true) {declaring : ClassId}
    {expression seen : Ty}
    (h : checker.answer (checker.seenFrom context declaring expression) = .ok seen) :
    (expression.wellPlaced wild = true → seen.isLegal = true) ∧
      ∀ map, checker.answer (checker.viewAs context declaring .empty) = .ok (some map) →
        (seen.isLegal = true ↔
          expression.wellPlaced (checker.standsForWildcard map) = true) := by
  rw [seenFrom, answer_bind] at h
  obtain ⟨found, hfound, h⟩ := bind_eq_ok.mp h
  cases found with
  | none =>
      obtain rfl := Except.ok.inj h
      refine ⟨Ty.wellPlaced_mono (by simp) expression, fun map hmap => ?_⟩
      rw [hfound] at hmap
      cases Except.ok.inj hmap
  | some map =>
      have hmap := keepsWild_of_viewAs hstore hcontext hfound
      have hsubst : checker.substitute expression map = .ok seen := by simpa using h
      have heq : seen.isLegal = expression.wellPlaced (checker.standsForWildcard map) :=
        isLegal_eq_of_substWithin hmap.legal expression hsubst
      refine ⟨fun hplaced => ?_, fun map' hmap' => ?_⟩
      · rw [heq]
        exact Ty.wellPlaced_mono (fun v => hmap.wild_of_stands) expression hplaced
      · rw [hfound] at hmap'
        obtain rfl := Option.some.inj (Except.ok.inj hmap')
        rw [heq]

/-- Seen from a `HashMap<?, String>`, the `K` of `Map` is a wildcard, by way of the `K` of
`HashMap`.  `Map<K, V[]>` is seen as a legal type all the same. -/
theorem hashMapOfWildcard_isLegal :
    let checker : Checker := { store := .collections }
    let wild : TypeVarId → Bool := fun v => v == ⟨8⟩ || v == ⟨12⟩
    let context : Ty := .app ⟨32⟩ [.unbounded, .cls ⟨5⟩]
    let expression : Ty := .app ⟨30⟩ [.var ⟨8⟩, .array (.var ⟨9⟩)]
    let seen : Ty := .app ⟨30⟩ [.unbounded, .array (.cls ⟨5⟩)]
    (checker.store.admitsDeclared wild = true ∧ checker.store.admits wild context = true ∧
        expression.wellPlaced wild = true) ∧
      checker.answer (checker.seenFrom context ⟨30⟩ expression) = .ok seen ∧
      seen.isLegal = true := by
  intro checker wild context expression seen
  have hchecks : checker.store.admitsDeclared wild = true ∧
      checker.store.admits wild context = true ∧ expression.wellPlaced wild = true := by
    decide +kernel
  have hseen : checker.answer (checker.seenFrom context ⟨30⟩ expression) = .ok seen := rfl
  exact ⟨hchecks, hseen, (isLegal_of_seenFrom checker hchecks.1 hchecks.2.1 hseen).1 hchecks.2.2⟩

/-- Seen from a `List<?>`, the type `E[]` is the array of a wildcard, though wildcards are arguments
only in the context, in the expression and in all declared supertypes. -/
theorem arrayOfWildcard_not_isLegal :
    let checker : Checker := { store := .collections }
    let context : Ty := .app ⟨25⟩ [.unbounded]
    let expression : Ty := .array (.var ⟨3⟩)
    (context.isLegal = true ∧ context.isWildcard = false ∧ expression.isLegal = true ∧
        expression.isWildcard = false ∧
        (checker.store.classes.toList.all fun decl => decl.edges.supertypes.all fun edge =>
          edge.isLegal && !edge.isWildcard) = true) ∧
      checker.answer (checker.seenFrom context ⟨25⟩ expression) = .ok (.array .unbounded) ∧
      (Ty.array .unbounded).isLegal = false := by
  intro checker context expression
  exact ⟨by decide +kernel, rfl, rfl⟩

end Checker

end JavaGenerics
