import JavaGenerics.Proofs.VocabularyCheck

/-!
# Tidy types

Most types that are written in programs are *tidy*: no class of them is nested in an owner or used
raw, and wildcards stand as arguments only.

* `Store.isTidy` — whether a type is tidy.  Variables may occur.
* `Store.Orderly` — a store whose supertypes are tidy and mention the parameters of the declaring
  class only.  `Object` and the boxes may be generic, though the rules of the language use them
  without arguments; but then their supertypes must not mention their parameters.  A regular store
  is orderly if it passes the check `Store.isOrderly`, as the collection classes do.
* `Store.groundTypes` — the vocabulary of types without variables.  **In an orderly store whatever a
  walk puts together from such types is such a type again** (`Orderly.wellFormed`).
-/

namespace JavaGenerics

namespace Store

mutual

/-- Whether a type is tidy.  A wildcard is so only where it stands as an argument. -/
def isTidy (store : Store) : (argument : Bool) → Ty → Bool
  | _, .cls id => (store.class? id).isSome && (store.paramsOf id).isEmpty
  | _, .applied raw args owner =>
    (store.class? raw).isSome && args.length == (store.paramsOf raw).length && owner.isNone &&
      isTidyAll store true args
  | _, .var v => (store.param? v).isSome
  | argument, .wildcard upper lower =>
    argument && isTidyAll store false upper && isTidyAll store false lower
  | _, .array component => isTidy store false component

def isTidyAll (store : Store) (argument : Bool) : List Ty → Bool
  | [] => true
  | ty :: rest => isTidy store argument ty && isTidyAll store argument rest

end

/-- A store whose supertypes are tidy and mention parameters of the declaring class only, and in
which the classes that are used without arguments by the rules of the language have supertypes
without variables. -/
structure Orderly (store : Store) : Prop where
  object : store.Knows store.wellKnown.object ∧ store.Flat store.wellKnown.object
  boxes : ∀ p, store.Knows (store.wellKnown.boxes.get p) ∧
    store.Flat (store.wellKnown.boxes.get p)
  nominal : ∀ id decl, store.class? id = some decl → ∀ edge ∈ decl.edges.supertypes,
    ∃ parent, edge.rawClass? = some parent
  tidy : ∀ id decl, store.class? id = some decl → ∀ edge ∈ decl.edges.supertypes,
    store.isTidy false edge = true
  own_vars : ∀ id decl, store.class? id = some decl → ∀ edge ∈ decl.edges.supertypes,
    ∀ v ∈ edge.vars, v ∈ decl.params
  params_nodup : ∀ id, (store.paramsOf id).Nodup

/-- Whether all supertypes declared in a store are tidy. -/
def hasTidySupertypes (store : Store) : Bool :=
  store.classes.toList.all fun decl => decl.edges.supertypes.all (store.isTidy false)

/-- Whether a regular store is orderly. -/
def isOrderly (store : Store) : Bool :=
  store.hasTidySupertypes && store.isFlat store.wellKnown.object &&
    Primitive.all.all fun p =>
      (store.class? (store.wellKnown.boxes.get p)).isSome &&
        store.isFlat (store.wellKnown.boxes.get p)

/-- Types without variables, of classes that are not nested in an owner. -/
def groundTypes (store : Store) : Vocabulary where
  classes := store.Knows
  vars := fun _ => False
  closed := True
  solid := False
  unnested := True

variable {store : Store} {own : TypeVarId → Prop}

/-- A type over the vocabulary of ground types has no variables. -/
lemma Finished.ground {ty : Ty} (h : store.Finished store.groundTypes ty) : ty.Ground := by
  induction h with
  | cls => rfl
  | applied _ _ _ _ hunnested ihargs =>
      rw [hunnested trivial, Ty.Ground, Ty.vars, Ty.varsOwner, List.append_nil]
      exact Ty.varsAll_eq_nil.mpr ihargs
  | var hv => exact absurd hv (by simp [groundTypes])
  | wildcard _ _ ihupper ihlower =>
      rw [Ty.Ground, Ty.vars, Ty.varsAll_eq_nil.mpr ihupper, Ty.varsAll_eq_nil.mpr ihlower,
        List.append_nil]
  | array _ _ ih => exact ih

lemma Finished.of_applied {raw : ClassId} {args : List Ty} {owner : Option Ty}
    (h : store.Finished store.groundTypes (.applied raw args owner)) :
    store.Knows raw ∧ args.length = (store.paramsOf raw).length ∧ owner = none ∧
      ∀ arg ∈ args, store.Finished store.groundTypes arg := by
  cases h with
  | applied hraw hlength hargs _ hunnested => exact ⟨hraw, hlength, hunnested trivial, hargs⟩

/-- Finished types in place of all variables make a type finished. -/
theorem Written.finished_subst {σ : TypeVarId → Option Ty} {ty : Ty}
    (h : store.Written store.groundTypes own ty) :
    (∀ v, own v → ∃ t, σ v = some t ∧ store.Finished store.groundTypes t) →
    store.Finished store.groundTypes (ty.subst σ) := by
  intro hσ
  induction h with
  | cls hid hflat => exact .cls hid hflat
  | applied hraw hlength _ _ hunnested ihargs =>
      rw [hunnested trivial, Ty.subst, Ty.substAll_eq_map, Ty.substOwner]
      refine .applied hraw (by simpa using hlength) (fun arg harg => ?_) (by simp) fun _ => rfl
      obtain ⟨arg', harg', rfl⟩ := List.mem_map.mp harg
      exact ihargs arg' harg'
  | var hv =>
      obtain ⟨t, ht, hfinished⟩ := hσ _ (hv.resolve_left fun hvars => hvars).2
      simpa [Ty.subst, ht] using hfinished
  | wildcard _ _ ihupper ihlower =>
      rw [Ty.subst, Ty.substAll_eq_map, Ty.substAll_eq_map]
      refine .wildcard (fun bound hbound => ?_) fun bound hbound => ?_
      · obtain ⟨bound', hmem, rfl⟩ := List.mem_map.mp hbound
        exact ihupper bound' hmem
      · obtain ⟨bound', hmem, rfl⟩ := List.mem_map.mp hbound
        exact ihlower bound' hmem
  | array _ _ ih => exact .array ih fun hsolid => hsolid.elim

/-- The supertypes of a class without parameters mention no variables. -/
lemma Orderly.flat (horder : store.Orderly) {id : ClassId} (hparams : store.paramsOf id = []) :
    store.Flat id := by
  intro decl hdecl edge hedge
  rw [paramsOf_eq hdecl] at hparams
  refine List.eq_nil_iff_forall_not_mem.mpr fun v hv => ?_
  have hmem := horder.own_vars id decl hdecl edge hedge v hv
  simp [hparams] at hmem

mutual

/-- A tidy type is in the vocabulary of ground types, given that its variables are sure to be
replaced. -/
theorem Orderly.written (horder : store.Orderly) : ∀ {argument : Bool} {ty : Ty},
    store.isTidy argument ty = true → (∀ v ∈ ty.vars, own v) →
    store.Written store.groundTypes own ty
  | _, .cls id, h, _ => by
    simp only [isTidy, Bool.and_eq_true, Option.isSome_iff_exists, List.isEmpty_iff] at h
    exact .cls h.1 fun _ => horder.flat h.2
  | _, .applied raw args owner, h, hown => by
    simp only [isTidy, Bool.and_eq_true, Option.isSome_iff_exists, beq_iff_eq,
      Option.isNone_iff_eq_none] at h
    obtain ⟨⟨⟨hraw, hlength⟩, rfl⟩, hargs⟩ := h
    simp only [Ty.vars, Ty.varsOwner, List.append_nil] at hown
    exact .applied hraw hlength (horder.writtenAll hargs hown) (by simp) fun _ => rfl
  | _, .var v, _, hown => .var (Or.inr ⟨trivial, hown v (by simp [Ty.vars])⟩)
  | _, .wildcard upper lower, h, hown => by
    simp only [isTidy, Bool.and_eq_true] at h
    simp only [Ty.vars, List.mem_append] at hown
    exact .wildcard (horder.writtenAll h.1.2 fun v hv => hown v (Or.inl hv))
      (horder.writtenAll h.2 fun v hv => hown v (Or.inr hv))
  | _, .array component, h, hown => .array (horder.written h hown) fun hsolid => hsolid.elim

theorem Orderly.writtenAll (horder : store.Orderly) : ∀ {argument : Bool} {types : List Ty},
    store.isTidyAll argument types = true → (∀ v ∈ Ty.varsAll types, own v) →
    ∀ ty ∈ types, store.Written store.groundTypes own ty
  | _, [], _, _ => by simp
  | _, ty :: rest, h, hown => by
    rw [isTidyAll, Bool.and_eq_true] at h
    simp only [Ty.varsAll, List.mem_append] at hown
    exact List.forall_mem_cons.mpr ⟨horder.written h.1 fun v hv => hown v (Or.inl hv),
      horder.writtenAll h.2 fun v hv => hown v (Or.inr hv)⟩

end

lemma Orderly.finished (horder : store.Orderly) {argument : Bool} {ty : Ty}
    (h : store.isTidy argument ty = true) (hground : ty.Ground) :
    store.Finished store.groundTypes ty :=
  horder.written h fun v hv => by
    rw [show ty.vars = [] from hground] at hv
    exact absurd hv (by simp)

/-- **An orderly store does not lead out of the ground types.** -/
theorem Orderly.wellFormed (horder : store.Orderly) : store.WellFormed store.groundTypes where
  nominal id decl hdecl edge hedge := by
    obtain ⟨parent, hraw⟩ := horder.nominal id decl hdecl edge hedge
    refine ⟨parent, hraw, ?_⟩
    have htidy := horder.tidy id decl hdecl edge hedge
    cases edge with
    | cls id =>
        simp only [isTidy, Bool.and_eq_true, Option.isSome_iff_exists] at htidy
        exact Option.some.inj hraw ▸ htidy.1
    | applied raw args owner =>
        simp only [isTidy, Bool.and_eq_true, Option.isSome_iff_exists] at htidy
        exact Option.some.inj hraw ▸ htidy.1.1.1
    | _ => simp [Ty.rawClass?] at hraw
  known _ h := h
  object := .cls horder.object.1 fun _ => horder.object.2
  boxes p := .cls (horder.boxes p).1 fun _ => (horder.boxes p).2
  supertypes id decl _ hdecl edge hedge :=
    horder.written (horder.tidy id decl hdecl edge hedge) (horder.own_vars id decl hdecl edge hedge)
  bounds _ h := h.elim
  foreign _ _ _ _ _ h := h

/-! ## Checking -/

lemma isTidy_of_hasTidySupertypes (h : store.hasTidySupertypes = true) {id : ClassId}
    {decl : ClassDecl} (hdecl : store.class? id = some decl) {edge : Ty}
    (hedge : edge ∈ decl.edges.supertypes) : store.isTidy false edge = true := by
  simp only [hasTidySupertypes, List.all_eq_true] at h
  exact h decl (Array.mem_toList_iff.mpr (Array.mem_of_getElem? hdecl)) edge hedge

/-- The variables of a type that may be declared as a supertype are those of its arguments. -/
lemma FitsClass.vars_eq {edge : Ty} {parent : ClassId} (h : store.FitsClass edge parent) :
    edge.vars = Ty.varsAll edge.args := by
  obtain ⟨hraw, -, howner, -⟩ := h
  cases edge with
  | applied raw args owner =>
      rw [show owner = none from howner]
      simp [Ty.vars, Ty.varsOwner, Ty.args]
  | cls id => rfl
  | _ => simp [Ty.rawClass?] at hraw

/-- **A regular store that passes the check is orderly.** -/
theorem Orderly.of_isOrderly (hreg : store.Regular) (h : store.isOrderly = true) :
    store.Orderly := by
  simp only [isOrderly, Bool.and_eq_true, List.all_eq_true, Option.isSome_iff_exists] at h
  obtain ⟨⟨htidy, hobject⟩, hboxes⟩ := h
  refine
    { object := ⟨hreg.object_reference.1, flat_of_isFlat hobject⟩
      boxes := fun p => ⟨(hboxes p (Primitive.mem_all p)).1,
        flat_of_isFlat (hboxes p (Primitive.mem_all p)).2⟩
      nominal := fun id decl hdecl edge hedge => ?_
      tidy := fun id decl hdecl edge hedge => isTidy_of_hasTidySupertypes htidy hdecl hedge
      own_vars := fun id decl hdecl edge hedge => ?_
      params_nodup := hreg.params_nodup }
  · obtain ⟨parent, hfits⟩ := hreg.supertypes id decl hdecl edge hedge
    exact ⟨parent, hfits.1⟩
  · obtain ⟨parent, hfits⟩ := hreg.supertypes id decl hdecl edge hedge
    rw [hfits.vars_eq]
    exact hreg.own_vars id decl hdecl edge hedge

theorem collections_orderly : collections.Orderly :=
  .of_isOrderly collections_regular (by decide +kernel)

end Store

end JavaGenerics
