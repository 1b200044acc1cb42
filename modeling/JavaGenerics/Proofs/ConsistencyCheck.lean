import JavaGenerics.Proofs.ConsistentStores
import JavaGenerics.Proofs.TidyTypes

/-!
# Checking that a store is consistent

`Store.Consistent` speaks of all names, but an index has finitely many entries.  Where all types are
tidy, it is enough to go through the entries of the two indexes and through the declarations.

* `Store.isConsistent` — the check, which computes.
* `Consistent.of_isConsistent` — **what passes the check is consistent.**
* `Store.core_consistent`, `Store.collections_consistent` — the stock stores are.
-/

namespace JavaGenerics

namespace Store

/-! ## The check -/

/-- Whether the name of the class `outer` and a dollar sign are in front of the name. -/
def isInFront (store : Store) (outer : ClassId) (name : String) : Bool :=
  (store.nameOf? outer).any fun outerName => (outerName ++ "$").toList.isPrefixOf name.toList

/-- Whether the parts of a declaration are where they belong, and its types tidy. -/
def isTidyDecl (store : Store) (id : ClassId) (decl : ClassDecl) : Bool :=
  (decl.edges.supertypes.all fun edge => edge.rawClass?.isSome && store.isTidy false edge) &&
    (decl.kind != .interface || decl.superclass.isNone) &&
    (decl.params.all fun var => (store.paramKey? var).any fun key => key.2 == .ofClass id) &&
    (decl.fields.all fun field => store.isTidy false field.ty) &&
    decide (decl.fields.map Field.name).Nodup &&
    decl.enclosing.all (store.isInFront · decl.name)

/-- Whether a store of tidy types is consistent. -/
def isConsistent (store : Store) : Bool :=
  (store.classIndex.entries.all fun (name, id) => store.nameOf? id == some name) &&
    (store.paramIndex.entries.all fun (key, var) => store.paramKey? var == some key) &&
    (Primitive.all.all fun p => (store.class? (store.wellKnown.primitives.get p)).isSome) &&
    (store.params.toList.zipIdx.all fun (param, i) =>
      store.paramIndex.get? (param.name, param.declarer) == some ⟨i⟩ &&
        param.bounds.all (store.isTidy false)) &&
    store.classes.toList.zipIdx.all fun (decl, i) =>
      store.idOf? decl.name == some ⟨i⟩ && store.isTidyDecl ⟨i⟩ decl

variable {store : Store}

/-! ## What passes is consistent -/

mutual

theorem proper_of_isTidy : ∀ {argument : Bool} {ty : Ty}, store.isTidy argument ty = true →
    (∀ inner ∈ ty.content, store.Proper inner) ∧ (argument = false → store.Proper ty)
  | _, .cls id, h => by
    rw [isTidy, Bool.and_eq_true, Option.isSome_iff_exists] at h
    have hproper : store.Proper (.cls id) := .cls h.1
    exact ⟨hproper.content, fun _ => hproper⟩
  | _, .applied raw args owner, h => by
    simp only [isTidy, Bool.and_eq_true, Option.isSome_iff_exists, Option.isNone_iff_eq_none] at h
    obtain ⟨⟨⟨hraw, -⟩, howner⟩, hargs⟩ := h
    have hproper : store.Proper (.applied raw args owner) :=
      .applied hraw (fun arg harg => (proper_of_isTidyAll hargs arg harg).1) (by simp [howner])
    exact ⟨hproper.content, fun _ => hproper⟩
  | _, .var v, h => by
    rw [isTidy, Option.isSome_iff_exists] at h
    have hproper : store.Proper (.var v) := .var h
    exact ⟨hproper.content, fun _ => hproper⟩
  | argument, .wildcard upper lower, h => by
    simp only [isTidy, Bool.and_eq_true] at h
    obtain ⟨⟨hargument, hupper⟩, hlower⟩ := h
    refine ⟨fun bound hbound => ?_, by simp [hargument]⟩
    rcases List.mem_append.mp hbound with hbound | hbound
    · exact (proper_of_isTidyAll hupper bound hbound).2 rfl
    · exact (proper_of_isTidyAll hlower bound hbound).2 rfl
  | _, .array component, h => by
    rw [isTidy] at h
    have hproper : store.Proper (.array component) := .array ((proper_of_isTidy h).2 rfl)
    exact ⟨hproper.content, fun _ => hproper⟩

theorem proper_of_isTidyAll : ∀ {argument : Bool} {types : List Ty},
    store.isTidyAll argument types = true → ∀ ty ∈ types,
      (∀ inner ∈ ty.content, store.Proper inner) ∧ (argument = false → store.Proper ty)
  | _, [], _ => by simp
  | _, ty :: rest, h => by
    rw [isTidyAll, Bool.and_eq_true] at h
    exact List.forall_mem_cons.mpr ⟨proper_of_isTidy h.1, proper_of_isTidyAll h.2⟩

end

lemma Proper.of_isTidy {ty : Ty} (h : store.isTidy false ty = true) : store.Proper ty :=
  (proper_of_isTidy h).2 rfl

/-- A declaration that passes is proper. -/
lemma ProperDecl.of_isTidyDecl {id : ClassId} {decl : ClassDecl}
    (h : store.isTidyDecl id decl = true) : store.ProperDecl id decl := by
  simp only [isTidyDecl, isInFront, Bool.and_eq_true, List.all_eq_true, Bool.or_eq_true,
    bne_iff_ne, ne_eq, Option.isNone_iff_eq_none, Option.any_eq_true, beq_iff_eq,
    decide_eq_true_eq, Option.all_eq_true, List.isPrefixOf_iff_prefix] at h
  obtain ⟨⟨⟨⟨⟨hsupertypes, hinterface⟩, hparams⟩, hfields⟩, hdistinct⟩, henclosing⟩ := h
  refine ⟨fun edge hedge => ?_, fun hkind => ?_, fun var hvar => ?_,
    fun field hfield => .of_isTidy (hfields field hfield), hdistinct, henclosing⟩
  · obtain ⟨hraw, htidy⟩ := hsupertypes edge hedge
    exact ⟨hraw, .of_isTidy htidy⟩
  · exact hinterface.resolve_left (not_not_intro hkind)
  · obtain ⟨⟨name, declarer⟩, hkey, rfl⟩ := hparams var hvar
    exact ⟨name, hkey⟩

/-- **What passes the check is consistent.** -/
theorem Consistent.of_isConsistent (h : store.isConsistent = true) : store.Consistent := by
  simp only [isConsistent, Bool.and_eq_true, List.all_eq_true, beq_iff_eq,
    Option.isSome_iff_exists] at h
  obtain ⟨⟨⟨⟨hentries, hparamEntries⟩, hprimitives⟩, hparams⟩, hclasses⟩ := h
  have hclass : ∀ id decl, store.class? id = some decl →
      store.idOf? decl.name = some id ∧ store.isTidyDecl id decl = true := by
    intro id decl hdecl
    exact hclasses (decl, id.index)
      (List.mem_zipIdx_iff_getElem?.mpr (by simpa [class?] using hdecl))
  have hparam : ∀ var param, store.param? var = some param →
      store.paramIndex.get? (param.name, param.declarer) = some var ∧
        ∀ bound ∈ param.bounds, store.isTidy false bound = true := by
    intro var param hfound
    exact hparams (param, var.index)
      (List.mem_zipIdx_iff_getElem?.mpr (by simpa [param?] using hfound))
  refine ⟨fun name id => ⟨fun hid => ?_, fun hname => ?_⟩,
    fun key var => ⟨fun hvar => ?_, fun hkey => ?_⟩, fun p => hprimitives p (Primitive.mem_all p),
    fun var param hfound bound hbound => .of_isTidy ((hparam var param hfound).2 bound hbound),
    fun id decl hdecl => .of_isTidyDecl (hclass id decl hdecl).2⟩
  · exact hentries (name, id) (Index.mem_of_get? hid)
  · obtain ⟨decl, hdecl, rfl⟩ := nameOf?_eq_some.mp hname
    exact (hclass id decl hdecl).1
  · exact hparamEntries (key, var) (Index.mem_of_get? hvar)
  · obtain ⟨param, hfound, rfl⟩ := Option.map_eq_some_iff.mp hkey
    exact (hparam var param hfound).1

theorem core_consistent : core.Consistent :=
  .of_isConsistent (by decide +kernel)

theorem collections_consistent : collections.Consistent :=
  .of_isConsistent (by decide +kernel)

lemma consistent_of_stock (h : store = core ∨ store = collections) : store.Consistent := by
  rcases h with rfl | rfl
  · exact core_consistent
  · exact collections_consistent

end Store

end JavaGenerics
