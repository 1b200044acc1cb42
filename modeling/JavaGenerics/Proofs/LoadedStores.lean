import JavaGenerics.Proofs.ConsistentLoading

/-!
# Stores filled by loading

Declarations are loaded in any order, a class possibly before the interfaces it names, and loading
may fail halfway.  What can still be relied upon where such a store is walked?

* `Store.Loaded` — the stores reached from the collection classes by loading classes and interfaces.
* `Store.Linked` — what holds of them all (`Loaded.linked`), because they are consistent: names lead
  to classes of the store, supertypes are classes of the store, and **interfaces have no superclass,
  whatever their signatures say.**

Nothing is promised about what an interface list names.  A class that has been mentioned but not
loaded counts as an ordinary class, and an ordinary class may be named there too.
-/

namespace JavaGenerics

open Loading

namespace Store

/-- Whatever the index finds is a class of the store. -/
def Indexed (store : Store) : Prop :=
  ∀ name id, store.idOf? name = some id → store.Knows id

/-- Names lead to classes of the store, and so do supertypes; interfaces have no superclass. -/
structure Linked (store : Store) : Prop where
  indexed : store.Indexed
  object_known : store.Knows store.wellKnown.object
  nominal : store.Nominal
  interface_top : ∀ id decl, store.class? id = some decl → decl.kind = .interface →
    decl.superclass = none

/-- The stores reached from the collection classes by loading classes and interfaces, in any order.
A failed attempt counts as well: what it changed before it failed stays changed. -/
inductive Loaded : Store → Prop where
  | stock : Loaded collections
  | load {store : Store} (name : String) (kind : DeclKind) (sig : ClassSig)
      (hkind : kind = .ordinary ∨ kind = .interface) :
      Loaded store → Loaded (runOn (Loader.loadClass name kind sig) store).2

variable {store : Store}

lemma Linked.of_consistent (h : store.Consistent)
    (hobject : store.Knows store.wellKnown.object) : store.Linked where
  indexed name id hid := knows_iff.mpr ⟨name, (h.indexed name id).mp hid⟩
  object_known := hobject
  nominal id decl hdecl edge hedge := by
    obtain ⟨hclass, hproper⟩ := (h.declared id decl hdecl).supertypes edge hedge
    obtain ⟨parent, hraw⟩ := Option.isSome_iff_exists.mp hclass
    exact ⟨parent, hraw, hproper.knows hraw⟩
  interface_top id decl hdecl := (h.declared id decl hdecl).interface_top

lemma Loaded.reaches (h : store.Loaded) : collections.Reaches store := by
  induction h with
  | stock => exact .refl collections
  | load name kind sig _ _ ih => exact .loadClass name kind sig ih

/-- **Every loaded store is linked.** -/
theorem Loaded.linked (h : store.Loaded) : store.Linked := by
  have hevolves := h.reaches.evolves collections_consistent
  refine .of_consistent (hevolves.consistent collections_consistent) ?_
  rw [hevolves.keeps.wellKnown]
  exact hevolves.keeps.knows collections_regular.object_reference.1

end Store

end JavaGenerics
