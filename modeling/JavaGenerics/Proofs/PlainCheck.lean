import JavaGenerics.Proofs.PlainTypes
import JavaGenerics.Proofs.RegularCheck

/-!
# Checking that types are plain

`Store.Plain` is a predicate with a derivation for each type it holds of.  Here it is computed.

* `Store.isPlain` — the check, with `plain_of_isPlain` saying that what passes is plain.
* `Store.hasPlainEdges` — the same for all declared supertypes of a store at once, which those of
  the stock stores pass (`Store.core_plainEdges`, `Store.collections_plainEdges`).
-/

namespace JavaGenerics

namespace Store

mutual

/-- Whether a type is plain over the given variables, or a plain argument where one may stand. -/
def isPlain (store : Store) : (argument : Bool) → List TypeVarId → Ty → Bool
  | _, _, .cls id =>
    (store.class? id).isSome && !store.wellKnown.isPrimitive id &&
      (id == store.wellKnown.object || (store.paramsOf id).isEmpty)
  | _, own, .applied raw args owner =>
    (store.class? raw).isSome && !store.wellKnown.isPrimitive raw && owner.isNone &&
      args.length == (store.paramsOf raw).length && isPlainAll store own args
  | _, own, .var v => own.contains v
  | argument, _, .wildcard [] [] => argument
  | argument, _, .wildcard [bound] [] => argument && isPlain store false [] bound
  | argument, _, .wildcard [] [bound] => argument && isPlain store false [] bound
  | _, _, .wildcard _ _ => false
  | _, _, .array (.cls id) => store.wellKnown.isPrimitive id || isPlain store false [] (.cls id)
  | _, _, .array component => isPlain store false [] component

def isPlainAll (store : Store) : List TypeVarId → List Ty → Bool
  | _, [] => true
  | own, arg :: rest => isPlain store true own arg && isPlainAll store own rest

end

variable {store : Store}

lemma reference_of_checks {id : ClassId}
    (h : ((store.class? id).isSome && !store.wellKnown.isPrimitive id) = true) :
    store.Reference id := by
  simp only [Bool.and_eq_true, Option.isSome_iff_exists, Bool.not_eq_true'] at h
  exact h

mutual

theorem plain_of_isPlain : ∀ {argument : Bool} {own : List TypeVarId} {ty : Ty},
    store.isPlain argument own ty = true →
      store.PlainArg own ty ∧ (argument = false → store.Plain own ty)
  | argument, own, .cls id, h => by
    simp only [isPlain, Bool.and_eq_true, Bool.or_eq_true, beq_iff_eq, List.isEmpty_iff] at h
    have hplain : store.Plain own (.cls id) := .cls (reference_of_checks (by simp [h])) h.2
    exact ⟨.type hplain, fun _ => hplain⟩
  | argument, own, .applied raw args owner, h => by
    simp only [isPlain, Bool.and_eq_true, beq_iff_eq, Option.isNone_iff_eq_none] at h
    obtain ⟨⟨⟨hraw, rfl⟩, hlength⟩, hargs⟩ := h
    have hplain : store.Plain own (.app raw args) :=
      .app (reference_of_checks (by simpa using hraw)) hlength (plain_of_isPlainAll hargs)
    exact ⟨.type hplain, fun _ => hplain⟩
  | argument, own, .var v, h => by
    have hplain : store.Plain own (.var v) := .var (by simpa [isPlain] using h)
    exact ⟨.type hplain, fun _ => hplain⟩
  | argument, own, .wildcard [] [], h => by
    rw [isPlain] at h
    exact ⟨.unbounded, by simp [h]⟩
  | argument, own, .wildcard [bound] [], h => by
    rw [isPlain, Bool.and_eq_true] at h
    exact ⟨.extending ((plain_of_isPlain h.2).2 rfl), by simp [h.1]⟩
  | argument, own, .wildcard [] [bound], h => by
    rw [isPlain, Bool.and_eq_true] at h
    exact ⟨.superOf ((plain_of_isPlain h.2).2 rfl), by simp [h.1]⟩
  | argument, own, .wildcard [] (_ :: _ :: _), h => by simp [isPlain] at h
  | argument, own, .wildcard [_] (_ :: _), h => by simp [isPlain] at h
  | argument, own, .wildcard (_ :: _ :: _) _, h => by simp [isPlain] at h
  | argument, own, .array component, h => by
    have hplain : store.Plain own (.array component) := by
      cases component with
      | cls id =>
          rw [isPlain, Bool.or_eq_true] at h
          rcases h with hprimitive | hplain
          · exact .primitives hprimitive
          · exact .array ((plain_of_isPlain hplain).2 rfl)
      | _ =>
          rw [isPlain] at h
          · exact .array ((plain_of_isPlain h).2 rfl)
          · simp
    exact ⟨.type hplain, fun _ => hplain⟩

theorem plain_of_isPlainAll : ∀ {own : List TypeVarId} {args : List Ty},
    store.isPlainAll own args = true → ∀ arg ∈ args, store.PlainArg own arg
  | _, [], _ => by simp
  | own, arg :: rest, h => by
    rw [isPlainAll, Bool.and_eq_true] at h
    exact List.forall_mem_cons.mpr ⟨(plain_of_isPlain h.1).1, plain_of_isPlainAll h.2⟩

end

lemma Plain.of_isPlain {own : List TypeVarId} {ty : Ty} (h : store.isPlain false own ty = true) :
    store.Plain own ty :=
  (plain_of_isPlain h).2 rfl

/-! ## Whole stores -/

/-- Whether all declared supertypes have plain arguments. -/
def hasPlainEdges (store : Store) : Bool :=
  store.classes.toList.all fun decl => decl.edges.supertypes.all fun edge =>
    store.isPlainAll decl.params edge.args

lemma plainEdges_of_check (h : store.hasPlainEdges = true) : store.PlainEdges := by
  simp only [hasPlainEdges, List.all_eq_true] at h
  intro id decl hdecl edge hedge
  exact plain_of_isPlainAll
    (h decl (Array.mem_toList_iff.mpr (Array.mem_of_getElem? hdecl)) edge hedge)

theorem core_plainEdges : core.PlainEdges :=
  plainEdges_of_check (by decide +kernel)

theorem collections_plainEdges : collections.PlainEdges :=
  plainEdges_of_check (by decide +kernel)

end Store

end JavaGenerics
