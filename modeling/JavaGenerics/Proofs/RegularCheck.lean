import JavaGenerics.Store.Stock
import JavaGenerics.Proofs.RegularStore

/-!
# Checking that a store is regular

`Store.Regular` speaks of all declarations and all paths.  For a given store it can be checked
declaration by declaration, if its classes are ranked such that the rank falls along every edge: no
class is above itself then.  Where supertypes are declared before their subtypes, the position of a
class is its rank.

* `Store.isWalkable`, `Store.isRegular` — the checks, which compute.
* `Walkable.of_isWalkable`, `Regular.of_isRegular` — **what passes the check is walkable, or
  regular.**
* `Store.core_regular`, `Store.collections_regular` — the stock stores are.
-/

namespace JavaGenerics

open Relation

namespace Store

variable (store : Store)

/-! ## The check -/

/-- Whether a declared supertype is a class of smaller rank, applied as it was declared, to types
that mention the given parameters only. -/
def fitsBefore (rank : ClassId → Nat) (id : ClassId) (params : List TypeVarId) (edge : Ty) : Bool :=
  match edge.rawClass? with
  | some parent =>
    rank parent < rank id && (store.class? parent).isSome &&
      !store.wellKnown.isPrimitive parent && edge.owner?.isNone &&
      edge.args.length == (store.paramsOf parent).length &&
      (Ty.varsAll edge.args).all params.contains
  | none => false

/-- Whether a declared supertype is declared as a class of the given kind. -/
def hasKind (kind : DeclKind) (edge : Ty) : Bool :=
  match edge.rawClass? with
  | some parent => store.kindOf? parent == some kind
  | none => false

/-- Whether one declaration is as in a walkable store. -/
def isWalkableAt (rank : ClassId → Nat) (id : ClassId) (decl : ClassDecl) : Bool :=
  decl.edges.supertypes.all (store.fitsBefore rank id decl.params) &&
    decl.interfaces.all (store.hasKind .interface) &&
    decl.superclass.all (store.hasKind .ordinary) &&
    (decl.kind != .interface || decl.superclass.isNone)

/-- Whether a store is walkable, with ranks that fall along every edge. -/
def isWalkable (rank : ClassId → Nat) : Bool :=
  (store.class? store.wellKnown.object).isSome &&
    !store.wellKnown.isPrimitive store.wellKnown.object &&
    decide (store.classes.toList.flatMap ClassDecl.params).Nodup &&
    store.classes.toList.zipIdx.all fun (decl, i) => store.isWalkableAt rank ⟨i⟩ decl

/-- Whether a store is regular, with every supertype declared before its subtypes. -/
def isRegular : Bool :=
  store.isWalkable ClassId.index &&
    (store.class? store.wellKnown.object).all fun decl =>
      decl.superclass.isNone && decl.interfaces.isEmpty

variable {store}

/-! ## What passes is regular -/

lemma fitsBefore_iff {rank : ClassId → Nat} {id : ClassId} {params : List TypeVarId} {edge : Ty} :
    store.fitsBefore rank id params edge = true ↔
      ∃ parent, rank parent < rank id ∧ store.FitsClass edge parent ∧
        ∀ v ∈ Ty.varsAll edge.args, v ∈ params := by
  cases hraw : edge.rawClass? with
  | none => simp [fitsBefore, FitsClass, hraw]
  | some parent =>
      simp only [fitsBefore, hraw, FitsClass, Reference, Knows, Option.isSome_iff_exists,
        Option.isNone_iff_eq_none, Option.some.injEq, Bool.and_eq_true, decide_eq_true_eq,
        Bool.not_eq_true', beq_iff_eq, List.all_eq_true, List.contains_iff_mem]
      constructor
      · rintro ⟨⟨⟨⟨⟨hlt, hknown⟩, hprim⟩, howner⟩, hlength⟩, hvars⟩
        exact ⟨parent, hlt, ⟨rfl, ⟨hknown, hprim⟩, howner, hlength⟩, hvars⟩
      · rintro ⟨parent', hlt, ⟨rfl, ⟨hknown, hprim⟩, howner, hlength⟩, hvars⟩
        exact ⟨⟨⟨⟨⟨hlt, hknown⟩, hprim⟩, howner⟩, hlength⟩, hvars⟩

lemma kindOf?_of_hasKind {kind : DeclKind} {edge : Ty} {parent : ClassId}
    (h : store.hasKind kind edge = true) (hraw : edge.rawClass? = some parent) :
    store.kindOf? parent = some kind := by
  simpa [hasKind, hraw] using h

/-- Where all parameters of all classes are distinct, those of one class are, and two classes have
none in common. -/
lemma params_of_nodup (h : (store.classes.toList.flatMap ClassDecl.params).Nodup) :
    (∀ id, (store.paramsOf id).Nodup) ∧
      ∀ id id', id ≠ id' → (store.paramsOf id).Disjoint (store.paramsOf id') := by
  obtain ⟨hown, hpairwise⟩ := List.nodup_flatMap.mp h
  have hmem : ∀ {id : ClassId} {decl : ClassDecl}, store.class? id = some decl →
      store.classes.toList[id.index]? = some decl := by
    intro id decl hdecl
    simpa [class?] using hdecl
  refine ⟨fun id => ?_, fun id id' hne v hv hv' => ?_⟩
  · cases hdecl : store.class? id with
    | none => simp [paramsOf, hdecl]
    | some decl =>
        rw [paramsOf_eq hdecl]
        exact hown decl (List.mem_of_getElem? (hmem hdecl))
  · cases hdecl : store.class? id with
    | none => simp [paramsOf, hdecl] at hv
    | some decl =>
    cases hdecl' : store.class? id' with
    | none => simp [paramsOf, hdecl'] at hv'
    | some decl' =>
        rw [paramsOf_eq hdecl] at hv
        rw [paramsOf_eq hdecl'] at hv'
        have hindex : id.index ≠ id'.index := ClassId.index_injective.ne hne
        obtain ⟨hlt, hget⟩ := List.getElem?_eq_some_iff.mp (hmem hdecl)
        obtain ⟨hlt', hget'⟩ := List.getElem?_eq_some_iff.mp (hmem hdecl')
        rcases Nat.lt_or_gt_of_ne hindex with horder | horder
        · have hdisjoint := List.pairwise_iff_getElem.mp hpairwise _ _ hlt hlt' horder
          rw [hget, hget'] at hdisjoint
          exact hdisjoint hv hv'
        · have hdisjoint := List.pairwise_iff_getElem.mp hpairwise _ _ hlt' hlt horder
          rw [hget, hget'] at hdisjoint
          exact hdisjoint hv' hv

/-- Where ranks fall along every edge, they fall along every path. -/
lemma rank_lt_of_path {rank : ClassId → Nat}
    (h : ∀ id parent, store.Extends id parent → rank parent < rank id) {id target : ClassId}
    (hpath : TransGen store.Extends id target) : rank target < rank id := by
  induction hpath with
  | single hstep => exact h _ _ hstep
  | tail _ hstep ih => exact (h _ _ hstep).trans ih

/-- **What passes the check for some ranks is walkable.** -/
theorem Walkable.of_isWalkable {rank : ClassId → Nat} (h : store.isWalkable rank = true) :
    store.Walkable := by
  simp only [isWalkable, Bool.and_eq_true, Bool.not_eq_true', decide_eq_true_eq,
    List.all_eq_true] at h
  obtain ⟨⟨⟨hobject, hprim⟩, hnodup⟩, hdecls⟩ := h
  have hat : ∀ id decl, store.class? id = some decl → store.isWalkableAt rank id decl = true := by
    intro id decl hdecl
    refine hdecls (decl, id.index) (List.mem_zipIdx_iff_getElem?.mpr ?_)
    simpa [class?] using hdecl
  simp only [isWalkableAt, Bool.and_eq_true, List.all_eq_true, Option.all_eq_true,
    Bool.or_eq_true, bne_iff_ne, ne_eq, Option.isNone_iff_eq_none] at hat
  obtain ⟨hown, hdisjoint⟩ := params_of_nodup hnodup
  have hlt : ∀ id parent, store.Extends id parent → rank parent < rank id := by
    rintro id parent ⟨decl, hdecl, edge, hedge, hraw⟩
    obtain ⟨parent', hlt, hfits, -⟩ :=
      fitsBefore_iff.mp ((hat id decl hdecl).1.1.1 edge hedge)
    have hsame := hfits.1
    rw [hraw, Option.some.injEq] at hsame
    exact hsame ▸ hlt
  refine
    { object_reference := ⟨Option.isSome_iff_exists.mp hobject, hprim⟩
      supertypes := fun id decl hdecl edge hedge => ?_
      own_vars := fun id decl hdecl edge hedge => ?_
      params_nodup := hown
      params_disjoint := hdisjoint
      interfaces_kind := fun id decl hdecl edge hedge parent hraw =>
        kindOf?_of_hasKind ((hat id decl hdecl).1.1.2 edge hedge) hraw
      superclass_kind := fun id decl hdecl edge hedge parent hraw =>
        kindOf?_of_hasKind ((hat id decl hdecl).1.2 edge hedge) hraw
      interface_top := fun id decl hdecl hkind => ?_
      acyclic := fun id hpath => Nat.lt_irrefl _ (rank_lt_of_path hlt hpath) }
  · obtain ⟨parent, -, hfits, -⟩ := fitsBefore_iff.mp ((hat id decl hdecl).1.1.1 edge hedge)
    exact ⟨parent, hfits⟩
  · obtain ⟨-, -, -, hvars⟩ := fitsBefore_iff.mp ((hat id decl hdecl).1.1.1 edge hedge)
    exact hvars
  · exact (hat id decl hdecl).2.resolve_left (not_not_intro hkind)

/-- **What passes the check is regular.** -/
theorem Regular.of_isRegular (h : store.isRegular = true) : store.Regular := by
  simp only [isRegular, Bool.and_eq_true, Option.all_eq_true, Option.isNone_iff_eq_none,
    List.isEmpty_iff] at h
  exact { toWalkable := .of_isWalkable h.1, object_top := h.2 }

theorem core_regular : core.Regular :=
  .of_isRegular (by decide +kernel)

theorem collections_regular : collections.Regular :=
  .of_isRegular (by decide +kernel)

/-- An `ArrayList` is a `List`, and so a `Collection`. -/
lemma collections_arrayList_below : collections.Below ⟨29⟩ ⟨24⟩ := by
  have hlist : collections.Extends ⟨29⟩ ⟨25⟩ :=
    .of_mem (Stock.passing 25 [7]) rfl (.tail _ (.head _)) rfl
  have hcollection : collections.Extends ⟨25⟩ ⟨24⟩ :=
    .of_mem (Stock.passing 24 [3]) rfl (.head _) rfl
  exact Or.inr (Or.inr ((TransGen.single hlist).tail hcollection))

end Store

end JavaGenerics
