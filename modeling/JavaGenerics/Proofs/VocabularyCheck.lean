import JavaGenerics.Proofs.RegularCheck
import JavaGenerics.Proofs.Vocabulary

/-!
# Checking that a store stays within a vocabulary

`Store.WellFormed` speaks of all declarations.  For a given store and given variables it is computed
here.

* `Store.vocabulary` — everything that a store knows, with some of its variables.
* `Store.isWritten` — the check of one type, with `written_of_isWritten` saying that what passes is
  written in the vocabulary.
* `Store.isWellFormed` — the check of all declarations, which the collection classes pass both with
  their parameters as variables (`Store.collections_wellFormed`) and with none
  (`Store.collections_closed`).
-/

namespace JavaGenerics

namespace Store

/-- All classes of a store and some variables.  No component of an array is a variable. -/
def vocabulary (store : Store) (vars : List TypeVarId) (closed : Bool) : Vocabulary where
  classes := store.Knows
  vars := (· ∈ vars)
  closed := closed = true
  solid := True
  unnested := False

/-- Whether no supertype that the class declares mentions a type variable. -/
def isFlat (store : Store) (id : ClassId) : Bool :=
  (store.class? id).all fun decl => decl.edges.supertypes.all fun edge => edge.vars.isEmpty

mutual

/-- Whether a type is written in the vocabulary of a store and the variables for which `occurs`
holds. -/
def isWritten (store : Store) (occurs : TypeVarId → Bool) : Ty → Bool
  | .cls id => (store.class? id).isSome && store.isFlat id
  | .applied raw args owner =>
    (store.class? raw).isSome && args.length == (store.paramsOf raw).length &&
      isWrittenAll store occurs args && isWrittenOwner store occurs owner
  | .var v => occurs v
  | .wildcard upper lower => isWrittenAll store occurs upper && isWrittenAll store occurs lower
  | .array component =>
    isWritten store occurs component && component.var?.isNone && !component.isWildcard

def isWrittenAll (store : Store) (occurs : TypeVarId → Bool) : List Ty → Bool
  | [] => true
  | ty :: rest => isWritten store occurs ty && isWrittenAll store occurs rest

def isWrittenOwner (store : Store) (occurs : TypeVarId → Bool) : Option Ty → Bool
  | none => true
  | some owner => isWritten store occurs owner

end

/-- Whether all declarations of a store stay within its vocabulary. -/
def isWellFormed (store : Store) (vars : List TypeVarId) (closed : Bool) : Bool :=
  store.isWritten vars.contains store.objectTy &&
    (Primitive.all.all fun p => store.isWritten vars.contains (.cls (store.wellKnown.boxes.get p))) &&
    (store.classes.toList.all fun decl =>
      (decl.edges.supertypes.all
        (store.isWritten fun v => vars.contains v || closed && decl.params.contains v)) &&
      (!closed || decl.params.all fun v => !vars.contains v)) &&
    vars.all fun v => (store.param? v).any fun param =>
      param.bounds.all (store.isWritten vars.contains)

variable {store : Store} {vars : List TypeVarId} {closed : Bool} {occurs : TypeVarId → Bool}
  {own : TypeVarId → Prop}

lemma flat_of_isFlat {id : ClassId} (h : store.isFlat id = true) : store.Flat id := by
  intro decl hdecl edge hedge
  simp only [isFlat, hdecl, Option.all_some, List.all_eq_true, List.isEmpty_iff] at h
  exact h edge hedge

mutual

/-- What passes the check of one type is written in the vocabulary. -/
theorem written_of_isWritten
    (hoccurs : ∀ v, occurs v = true → v ∈ vars ∨ closed = true ∧ own v) :
    ∀ {ty : Ty}, store.isWritten occurs ty = true →
      store.Written (store.vocabulary vars closed) own ty
  | .cls id, h => by
    simp only [isWritten, Bool.and_eq_true, Option.isSome_iff_exists] at h
    exact .cls h.1 fun _ => flat_of_isFlat h.2
  | .applied raw args owner, h => by
    simp only [isWritten, Bool.and_eq_true, Option.isSome_iff_exists, beq_iff_eq] at h
    obtain ⟨⟨⟨hraw, hlength⟩, hargs⟩, howner⟩ := h
    exact .applied hraw hlength (written_of_isWrittenAll hoccurs hargs)
      (written_of_isWrittenOwner hoccurs howner) fun hvoc => hvoc.elim
  | .var v, h => .var (hoccurs v (by simpa [isWritten] using h))
  | .wildcard upper lower, h => by
    simp only [isWritten, Bool.and_eq_true] at h
    exact .wildcard (written_of_isWrittenAll hoccurs h.1) (written_of_isWrittenAll hoccurs h.2)
  | .array component, h => by
    simp only [isWritten, Bool.and_eq_true, Option.isNone_iff_eq_none, Bool.not_eq_true'] at h
    exact .array (written_of_isWritten hoccurs h.1.1) fun _ => ⟨h.1.2, h.2⟩

theorem written_of_isWrittenAll
    (hoccurs : ∀ v, occurs v = true → v ∈ vars ∨ closed = true ∧ own v) :
    ∀ {types : List Ty}, store.isWrittenAll occurs types = true →
      ∀ ty ∈ types, store.Written (store.vocabulary vars closed) own ty
  | [], _ => by simp
  | ty :: rest, h => by
    rw [isWrittenAll, Bool.and_eq_true] at h
    exact List.forall_mem_cons.mpr
      ⟨written_of_isWritten hoccurs h.1, written_of_isWrittenAll hoccurs h.2⟩

theorem written_of_isWrittenOwner
    (hoccurs : ∀ v, occurs v = true → v ∈ vars ∨ closed = true ∧ own v) :
    ∀ {owner : Option Ty}, store.isWrittenOwner occurs owner = true →
      ∀ outer, owner = some outer → store.Written (store.vocabulary vars closed) own outer
  | none, _ => by simp
  | some owner, h => by
    rintro _ ⟨⟩
    exact written_of_isWritten hoccurs h

end

lemma finished_of_isWritten {ty : Ty} (h : store.isWritten vars.contains ty = true) :
    store.Finished (store.vocabulary vars closed) ty :=
  written_of_isWritten (fun _ hv => Or.inl (List.contains_iff_mem.mp hv)) h

/-- **What passes the check of all declarations is well formed.** -/
theorem WellFormed.of_isWellFormed (hnom : store.Nominal)
    (h : store.isWellFormed vars closed = true) :
    store.WellFormed (store.vocabulary vars closed) := by
  simp only [isWellFormed, Bool.and_eq_true, List.all_eq_true, Bool.or_eq_true,
    Bool.not_eq_true', Option.any_eq_true] at h
  obtain ⟨⟨⟨hobject, hboxes⟩, hdecls⟩, hvars⟩ := h
  have hat (id : ClassId) (decl : ClassDecl) (hdecl : store.class? id = some decl) :=
    hdecls decl (Array.mem_toList_iff.mpr (Array.mem_of_getElem? hdecl))
  refine
    { nominal := hnom
      known := fun _ => id
      object := finished_of_isWritten hobject
      boxes := fun p => finished_of_isWritten (hboxes p (Primitive.mem_all p))
      supertypes := fun id decl _ hdecl edge hedge => ?_
      bounds := fun v hv => ?_
      foreign := fun hclosed id hid v hv => ?_ }
  · refine written_of_isWritten (fun v hv => ?_) ((hat id decl hdecl).1 edge hedge)
    simpa [vocabulary] using hv
  · obtain ⟨param, hparam, hbounds⟩ := hvars v hv
    exact ⟨param, hparam, fun bound hbound => finished_of_isWritten (hbounds bound hbound)⟩
  · obtain ⟨decl, hdecl⟩ := hid
    rw [paramsOf_eq hdecl] at hv
    have hnone := (hat id decl hdecl).2.resolve_left (by simp [show closed = true from hclosed])
    intro hmem
    have hcontains : vars.contains v = true := List.contains_iff_mem.mpr hmem
    rw [hnone v hv] at hcontains
    exact absurd hcontains (by simp)

/-! ## The collection classes -/

/-- The collection classes are well formed with all their parameters as variables. -/
theorem collections_wellFormed : collections.WellFormed
    (collections.vocabulary ((List.range 14).map TypeVarId.mk) false) :=
  .of_isWellFormed collections_regular.nominal (by decide +kernel)

/-- The collection classes are well formed without any variables. -/
theorem collections_closed : collections.WellFormed (collections.vocabulary [] true) :=
  .of_isWellFormed collections_regular.nominal (by decide +kernel)

end Store

end JavaGenerics
