import Mathlib.Logic.Relation
import JavaGenerics.Proofs.LoadingSteps

/-!
# Consistent stores

Declarations refer to one another by id, and the store finds ids by name.  A store is of use only
while these references hold: every id leads somewhere, every name leads to the class of that name,
and the declarations have the shape that walks rely on.

* `Store.Proper` — a type all of whose ids are known, with wildcards as direct type arguments only.
* `Store.ProperDecl` — a declaration whose types are proper, and whose other parts are where they
  belong: **an enclosing class gives the front of the name of what it encloses.**
* `Store.Consistent` — names and ids lead to each other, and all declarations are proper.  Enclosing
  links cannot run in a circle then, as names get longer along them
  (`Consistent.enclosing_acyclic`).
* `Store.Keeps` — no id changes its meaning from one store to another.  What is proper stays so.
* `Store.Evolves` — nothing loses its meaning and consistency is not lost.  Every way of changing a
  store does that, if what is written there is proper.
-/

namespace JavaGenerics

open Relation

lemma TypeVarId.index_injective : Function.Injective TypeVarId.index := by
  rintro ⟨a⟩ ⟨b⟩ rfl
  rfl

/-- The bounds of a wildcard.  Every other type is its own content. -/
def Ty.content : Ty → List Ty
  | .wildcard upper lower => upper ++ lower
  | ty => [ty]

/-- Where an index inverts a function, it still does after a fresh key and a fresh value have been
added to both. -/
lemma Index.get?_insert_iff {κ ν : Type} [DecidableEq κ] [DecidableEq ν] {index : Index κ ν}
    {keyOf? : ν → Option κ} (h : ∀ key value, index.get? key = some value ↔ keyOf? value = some key)
    {key : κ} {value : ν} (hkey : index.get? key = none) (hvalue : keyOf? value = none)
    (other : κ) (found : ν) :
    (index.insert key value).get? other = some found ↔
      (if found = value then some key else keyOf? found) = some other := by
  have hnew : keyOf? found ≠ some key := fun hfound => by
    rw [← h, hkey] at hfound
    exact absurd hfound (by simp)
  rw [Index.get?_insert]
  by_cases hother : other = key
  · by_cases hfound : found = value
    · simp [hother, hfound]
    · simp [hother, hfound, hnew, Ne.symm hfound]
  · by_cases hfound : found = value
    · simp [hother, hfound, h, hvalue, Ne.symm hother]
    · simp [hother, hfound, h]

namespace Store

/-! ## What ids mean -/

/-- The name of a class. -/
def nameOf? (store : Store) (id : ClassId) : Option String :=
  (store.class? id).map ClassDecl.name

/-- What identifies a type variable: its name and the element that declares it. -/
def paramKey? (store : Store) (var : TypeVarId) : Option (String × Declarer) :=
  (store.param? var).map fun param => (param.name, param.declarer)

/-- A type variable of the store. -/
def KnowsVar (store : Store) (var : TypeVarId) : Prop :=
  ∃ param, store.param? var = some param

/-- All ids in the type are known, and wildcards occur as direct type arguments only.  The type
itself is no wildcard. -/
inductive Proper (store : Store) : Ty → Prop where
  | cls {id : ClassId} : store.Knows id → Proper store (.cls id)
  | applied {raw : ClassId} {args : List Ty} {owner : Option Ty} : store.Knows raw →
      (∀ arg ∈ args, ∀ ty ∈ arg.content, Proper store ty) →
      (∀ ty, owner = some ty → Proper store ty) → Proper store (.applied raw args owner)
  | var {var : TypeVarId} : store.KnowsVar var → Proper store (.var var)
  | array {component : Ty} : Proper store component → Proper store (.array component)

/-- A proper type that is a class, applied or not. -/
def ProperClass (store : Store) (ty : Ty) : Prop :=
  ty.rawClass?.isSome = true ∧ store.Proper ty

/-- A declaration whose parts are where they belong. -/
structure ProperDecl (store : Store) (id : ClassId) (decl : ClassDecl) : Prop where
  supertypes : ∀ edge ∈ decl.edges.supertypes, store.ProperClass edge
  interface_top : decl.kind = .interface → decl.superclass = none
  /-- The class declares the parameters that it lists. -/
  params : ∀ var ∈ decl.params, ∃ name, store.paramKey? var = some (name, .ofClass id)
  fields : ∀ field ∈ decl.fields, store.Proper field.ty
  fields_distinct : (decl.fields.map Field.name).Nodup
  /-- The name of the enclosing class and a dollar sign are in front of the name. -/
  enclosing : ∀ outer, decl.enclosing = some outer →
    ∃ name, store.nameOf? outer = some name ∧ (name ++ "$").toList <+: decl.name.toList

/-- A store whose references hold. -/
structure Consistent (store : Store) : Prop where
  /-- Every class is found by its name, and nothing else is. -/
  indexed : ∀ name id, store.idOf? name = some id ↔ store.nameOf? id = some name
  params_indexed : ∀ key var, store.paramIndex.get? key = some var ↔ store.paramKey? var = some key
  primitives_known : ∀ p, store.Knows (store.wellKnown.primitives.get p)
  bounds : ∀ var param, store.param? var = some param → ∀ bound ∈ param.bounds, store.Proper bound
  declared : ∀ id decl, store.class? id = some decl → store.ProperDecl id decl

/-- One class is recorded as lying directly inside another. -/
def EnclosedBy (store : Store) (id outer : ClassId) : Prop :=
  ∃ decl, store.class? id = some decl ∧ decl.enclosing = some outer

variable {store after : Store}

lemma nameOf?_eq_some {id : ClassId} {name : String} :
    store.nameOf? id = some name ↔ ∃ decl, store.class? id = some decl ∧ decl.name = name := by
  simp [nameOf?]

lemma knows_iff {id : ClassId} : store.Knows id ↔ ∃ name, store.nameOf? id = some name := by
  simp [nameOf?, Knows]

lemma knowsVar_iff {var : TypeVarId} :
    store.KnowsVar var ↔ ∃ key, store.paramKey? var = some key := by
  simp [paramKey?, KnowsVar]

/-- The types inside a proper type are proper. -/
lemma Proper.content {ty : Ty} (h : store.Proper ty) : ∀ inner ∈ ty.content, store.Proper inner := by
  have hself : ty.content = [ty] := by cases h <;> rfl
  simpa [hself] using h

/-- The class behind a proper type is known. -/
lemma Proper.knows {ty : Ty} {id : ClassId} (h : store.Proper ty) (hraw : ty.rawClass? = some id) :
    store.Knows id := by
  cases h with
  | cls hid => exact Option.some.inj hraw ▸ hid
  | applied hid _ _ => exact Option.some.inj hraw ▸ hid
  | var _ => simp [Ty.rawClass?] at hraw
  | array _ => simp [Ty.rawClass?] at hraw

/-! ## Enclosing classes -/

/-- Names get longer from the outside in. -/
lemma Consistent.length_lt_of_enclosed (h : store.Consistent) {id outer : ClassId}
    (hpath : TransGen store.EnclosedBy id outer) :
    ∀ name, store.nameOf? id = some name →
      ∃ name', store.nameOf? outer = some name' ∧ name'.length < name.length := by
  have hstep : ∀ id outer, store.EnclosedBy id outer → ∀ name, store.nameOf? id = some name →
      ∃ name', store.nameOf? outer = some name' ∧ name'.length < name.length := by
    rintro id outer ⟨decl, hdecl, houter⟩ name hname
    obtain ⟨name', hname', hprefix⟩ := (h.declared id decl hdecl).enclosing outer houter
    have hsame : decl.name = name := by simpa [nameOf?, hdecl] using hname
    have hlength : name'.toList.length + 1 ≤ name.toList.length := by
      simpa [hsame] using hprefix.length_le
    rw [String.length_toList, String.length_toList] at hlength
    exact ⟨name', hname', hlength⟩
  induction hpath with
  | single h => exact hstep _ _ h
  | tail _ hlast ih =>
      intro name hname
      obtain ⟨middle, hmiddle, hlt⟩ := ih name hname
      obtain ⟨name', hname', hlt'⟩ := hstep _ _ hlast middle hmiddle
      exact ⟨name', hname', hlt'.trans hlt⟩

/-- **In a consistent store no class lies inside itself.** -/
theorem Consistent.enclosing_acyclic (h : store.Consistent) (id : ClassId) :
    ¬ TransGen store.EnclosedBy id id := by
  intro hpath
  obtain ⟨decl, hdecl, -⟩ := (TransGen.head'_iff.mp hpath).choose_spec.1
  have hname : store.nameOf? id = some decl.name := by rw [nameOf?, hdecl, Option.map_some]
  obtain ⟨name', hname', hlt⟩ := h.length_lt_of_enclosed hpath decl.name hname
  rw [hname, Option.some.injEq] at hname'
  rw [hname'] at hlt
  exact Nat.lt_irrefl _ hlt

/-! ## Stores that keep what is there -/

/-- No id changes its meaning from one store to the other. -/
structure Keeps (store after : Store) : Prop where
  wellKnown : after.wellKnown = store.wellKnown
  names : ∀ id name, store.nameOf? id = some name → after.nameOf? id = some name
  params : ∀ var key, store.paramKey? var = some key → after.paramKey? var = some key

lemma Keeps.knows (h : store.Keeps after) {id : ClassId} (hid : store.Knows id) :
    after.Knows id := by
  obtain ⟨name, hname⟩ := knows_iff.mp hid
  exact knows_iff.mpr ⟨name, h.names id name hname⟩

lemma Keeps.knowsVar (h : store.Keeps after) {var : TypeVarId} (hvar : store.KnowsVar var) :
    after.KnowsVar var := by
  obtain ⟨key, hkey⟩ := knowsVar_iff.mp hvar
  exact knowsVar_iff.mpr ⟨key, h.params var key hkey⟩

lemma Proper.mono {ty : Ty} (h : store.Proper ty) (hkeeps : store.Keeps after) :
    after.Proper ty := by
  induction h with
  | cls hid => exact .cls (hkeeps.knows hid)
  | applied hraw _ _ ihargs ihowner => exact .applied (hkeeps.knows hraw) ihargs ihowner
  | var hvar => exact .var (hkeeps.knowsVar hvar)
  | array _ ih => exact .array ih

lemma ProperClass.mono {ty : Ty} (h : store.ProperClass ty) (hkeeps : store.Keeps after) :
    after.ProperClass ty :=
  ⟨h.1, h.2.mono hkeeps⟩

lemma ProperDecl.mono {id : ClassId} {decl : ClassDecl} (h : store.ProperDecl id decl)
    (hkeeps : store.Keeps after) : after.ProperDecl id decl where
  supertypes edge hedge := (h.supertypes edge hedge).mono hkeeps
  interface_top := h.interface_top
  params var hvar := by
    obtain ⟨name, hname⟩ := h.params var hvar
    exact ⟨name, hkeeps.params _ _ hname⟩
  fields field hfield := (h.fields field hfield).mono hkeeps
  fields_distinct := h.fields_distinct
  enclosing outer houter := by
    obtain ⟨name, hname, hprefix⟩ := h.enclosing outer houter
    exact ⟨name, hkeeps.names _ _ hname, hprefix⟩

/-- A store that keeps what was there is consistent again, if both indexes are right and all that
stands in it was proper before. -/
lemma Consistent.of_keeps (h : store.Consistent) (hkeeps : store.Keeps after)
    (hindexed : ∀ name id, after.idOf? name = some id ↔ after.nameOf? id = some name)
    (hparams : ∀ key var, after.paramIndex.get? key = some var ↔ after.paramKey? var = some key)
    (hbounds : ∀ var param, after.param? var = some param →
      ∀ bound ∈ param.bounds, store.Proper bound)
    (hdeclared : ∀ id decl, after.class? id = some decl → store.ProperDecl id decl) :
    after.Consistent where
  indexed := hindexed
  params_indexed := hparams
  primitives_known p := by
    rw [hkeeps.wellKnown]
    exact hkeeps.knows (h.primitives_known p)
  bounds var param hparam bound hbound := (hbounds var param hparam bound hbound).mono hkeeps
  declared id decl hdecl := (hdeclared id decl hdecl).mono hkeeps

/-- Nothing loses its meaning from one store to the other, and consistency is not lost. -/
structure Evolves (store after : Store) : Prop where
  keeps : store.Keeps after
  consistent : store.Consistent → after.Consistent

instance : IsPreorder Store Evolves where
  refl _ := ⟨⟨rfl, fun _ _ => id, fun _ _ => id⟩, id⟩
  trans _ _ _ hab hbc :=
    ⟨⟨hbc.keeps.wellKnown.trans hab.keeps.wellKnown,
      fun id name hname => hbc.keeps.names id name (hab.keeps.names id name hname),
      fun var key hkey => hbc.keeps.params var key (hab.keeps.params var key hkey)⟩,
      hbc.consistent ∘ hab.consistent⟩

/-! ## Changing a store -/

/-- What a class is called after another one has been added. -/
lemma nameOf?_pushClass (store : Store) (name : String) (index : Index String ClassId)
    (id : ClassId) :
    ({ store with
      classes := store.classes.push { name := name }
      classIndex := index } : Store).nameOf? id =
      if id = ⟨store.classes.size⟩ then some name else store.nameOf? id := by
  rw [nameOf?, class?, getElem?_pushClass, apply_ite (Option.map ClassDecl.name)]
  exact if_congr (ClassId.index_injective.eq_iff (b := ⟨store.classes.size⟩)) rfl rfl

/-- What a class is called after a known one has been replaced. -/
lemma nameOf?_setClass {id : ClassId} {old : String} (hid : store.nameOf? id = some old)
    (decl : ClassDecl) (index : Index String ClassId) (other : ClassId) :
    ({ store with
      classes := store.classes.setIfInBounds id.index decl
      classIndex := index } : Store).nameOf? other =
      if other = id then some decl.name else store.nameOf? other := by
  rw [nameOf?, class?, getElem?_setClass]
  by_cases hother : other = id
  · subst hother
    obtain ⟨found, hfound, -⟩ := nameOf?_eq_some.mp hid
    simp [hfound]
  · simp [nameOf?, hother, Ne.symm hother]

/-- **A name is interned as that of a class that bears it**, if the index tells the truth. -/
lemma nameOf?_internClass (hindex : ∀ name id, store.idOf? name = some id →
    store.nameOf? id = some name) (name : String) :
    (store.internClass name).2.nameOf? (store.internClass name).1 = some name := by
  unfold internClass
  cases hname : store.idOf? name with
  | some id => exact hindex name id hname
  | none => exact (store.nameOf?_pushClass name _ _).trans (if_pos rfl)

/-- What identifies a type variable after another one has been added. -/
lemma paramKey?_pushParam (store : Store) (name : String) (declarer : Declarer)
    (index : Index (String × Declarer) TypeVarId) (var : TypeVarId) :
    ({ store with
      params := store.params.push { name := name, declarer := declarer }
      paramIndex := index } : Store).paramKey? var =
      if var = ⟨store.params.size⟩ then some (name, declarer) else store.paramKey? var := by
  rw [paramKey?, param?, Array.getElem?_push, apply_ite (Option.map _)]
  exact if_congr (TypeVarId.index_injective.eq_iff (b := ⟨store.params.size⟩)) rfl rfl

/-- What is found after a known type variable has been replaced. -/
lemma param?_setParam {var : TypeVarId} (hvar : store.KnowsVar var) (param : TypeParam)
    (index : Index (String × Declarer) TypeVarId) (other : TypeVarId) :
    ({ store with
      params := store.params.setIfInBounds var.index param
      paramIndex := index } : Store).param? other =
      if other = var then some param else store.param? other := by
  rw [param?, Array.getElem?_setIfInBounds]
  by_cases hother : other = var
  · subst hother
    obtain ⟨found, hfound⟩ := hvar
    have hlt : other.index < store.params.size :=
      (Array.getElem?_eq_some_iff.mp hfound).choose
    simp [hlt]
  · rw [if_neg fun heq => hother (TypeVarId.index_injective heq).symm, if_neg hother]
    rfl

/-- **A name is interned as that of a variable that bears it**, if the index tells the truth. -/
lemma paramKey?_internParam (hindex : ∀ key var, store.paramIndex.get? key = some var →
    store.paramKey? var = some key) (name : String) (declarer : Declarer) :
    (store.internParam name declarer).2.paramKey? (store.internParam name declarer).1 =
      some (name, declarer) := by
  unfold internParam
  cases hkey : store.paramIndex.get? (name, declarer) with
  | some var => exact hindex _ var hkey
  | none => exact (store.paramKey?_pushParam name declarer _ _).trans (if_pos rfl)

/-- What a class that is declared anew was before, and what becomes of the store. -/
lemma exists_of_redeclareClass {id : ClassId} {decl : ClassDecl}
    (hdone : store.redeclareClass id decl = .ok after) :
    ∃ old, store.class? id = some old ∧ after = { store with
      classes := store.classes.setIfInBounds id.index decl
      classIndex := if old.name = decl.name then store.classIndex
        else (store.classIndex.erase old.name).insert decl.name id } := by
  unfold redeclareClass at hdone
  cases hid : store.class? id with
  | none => simp [knownClass, hid] at hdone
  | some old =>
      simp only [knownClass, hid, ok_bind, pure_eq_ok, Except.ok.injEq] at hdone
      exact ⟨old, rfl, hdone.symm⟩

/-- What a type variable that is declared anew was before, and what becomes of the store. -/
lemma exists_of_redeclareParam {var : TypeVarId} {param : TypeParam}
    (hdone : store.redeclareParam var param = .ok after) :
    ∃ old, store.param? var = some old ∧ after = { store with
      params := store.params.setIfInBounds var.index param
      paramIndex := if old.name = param.name ∧ old.declarer = param.declarer then store.paramIndex
        else (store.paramIndex.erase (old.name, old.declarer)).insert
          (param.name, param.declarer) var } := by
  unfold redeclareParam at hdone
  cases hvar : store.param? var with
  | none => simp [knownParam, hvar] at hdone
  | some old =>
      simp only [knownParam, hvar, ok_bind, pure_eq_ok, Except.ok.injEq] at hdone
      exact ⟨old, rfl, hdone.symm⟩

/-- A placeholder declares nothing that could be wrong. -/
lemma properDecl_placeholder (id : ClassId) (name : String) :
    store.ProperDecl id { name := name } where
  supertypes := by simp [ClassDecl.edges, Edges.supertypes]
  interface_top _ := rfl
  params := by simp
  fields := by simp
  fields_distinct := List.nodup_nil
  enclosing := by simp

/-- **Interning a name lets a store evolve, and leads to the class of that name.** -/
lemma evolves_internClass (store : Store) (name : String) :
    store.Evolves (store.internClass name).2 ∧
      (store.Consistent →
        (store.internClass name).2.nameOf? (store.internClass name).1 = some name) := by
  refine ⟨?_, fun h => nameOf?_internClass (fun name id => (h.indexed name id).mp) name⟩
  unfold internClass
  cases hname : store.idOf? name with
  | some id => exact refl_of Evolves store
  | none =>
      let new : ClassId := ⟨store.classes.size⟩
      let grown : Store := { store with
        classes := store.classes.push { name := name }
        classIndex := store.classIndex.insert name new }
      have hnameOf : ∀ id, grown.nameOf? id = if id = new then some name else store.nameOf? id :=
        store.nameOf?_pushClass name _
      have hfresh : store.nameOf? new = none := by simp [nameOf?, class?, new]
      have hkeeps : store.Keeps grown := by
        refine ⟨rfl, fun id found hfound => ?_, fun _ _ hkey => hkey⟩
        have hold : id ≠ new := by
          rintro rfl
          simp [hfresh] at hfound
        rw [hnameOf, if_neg hold, hfound]
      refine ⟨hkeeps, fun h => h.of_keeps hkeeps (fun other id => ?_) h.params_indexed h.bounds
        fun id decl hdecl => ?_⟩
      · rw [hnameOf]
        exact Index.get?_insert_iff h.indexed hname hfresh other id
      · rw [class?, getElem?_pushClass] at hdecl
        split at hdecl
        · obtain rfl := Option.some.inj hdecl
          exact properDecl_placeholder id name
        · exact h.declared id decl hdecl

/-- **Writing a proper declaration where a class of that name was lets a store evolve.** -/
lemma evolves_setClass {id : ClassId} {decl : ClassDecl}
    (hname : store.nameOf? id = some decl.name)
    (hdecl : store.Consistent → store.ProperDecl id decl) :
    store.Evolves { store with classes := store.classes.setIfInBounds id.index decl } := by
  set changed : Store := { store with classes := store.classes.setIfInBounds id.index decl }
  have hnameOf : ∀ other, changed.nameOf? other = store.nameOf? other := by
    intro other
    rw [nameOf?_setClass hname decl store.classIndex other]
    split
    · rename_i hother
      rw [hother, hname]
    · rfl
  have hkeeps : store.Keeps changed :=
    ⟨rfl, fun other name hother => (hnameOf other).trans hother, fun _ _ hkey => hkey⟩
  refine ⟨hkeeps, fun h => h.of_keeps hkeeps (fun name other => ?_) h.params_indexed h.bounds
    fun other found hfound => ?_⟩
  · rw [hnameOf]
    exact h.indexed name other
  · rw [class?, getElem?_setClass, Option.map_eq_some_iff] at hfound
    obtain ⟨old, hold, hpick⟩ := hfound
    split at hpick
    · rename_i hother
      rw [← hpick, ← hother]
      exact hdecl h
    · exact hpick ▸ h.declared other old hold

/-- Changing a class in place lets a store evolve, if the name stays and the declaration is proper
still. -/
lemma evolves_modifyClass (store : Store) (id : ClassId) {change : ClassDecl → ClassDecl}
    (hname : ∀ decl, (change decl).name = decl.name)
    (hchange : ∀ decl, store.class? id = some decl → store.ProperDecl id decl →
      store.ProperDecl id (change decl)) :
    store.Evolves (store.modifyClass id change) := by
  unfold modifyClass
  cases hid : store.class? id with
  | none => exact refl_of Evolves store
  | some decl =>
      have hsame : store.nameOf? id = some (change decl).name := by
        rw [hname, nameOf?, hid, Option.map_some]
      exact evolves_setClass hsame fun h => hchange decl hid (h.declared id decl hid)

/-- Installing a proper declaration at the class of its name lets a store evolve. -/
lemma evolves_redeclareClass {id : ClassId} {decl : ClassDecl}
    (hname : store.nameOf? id = some decl.name)
    (hdecl : store.Consistent → store.ProperDecl id decl)
    (hdone : store.redeclareClass id decl = .ok after) : store.Evolves after := by
  obtain ⟨old, hold, rfl⟩ := exists_of_redeclareClass hdone
  have hsame : old.name = decl.name := by simpa [nameOf?, hold] using hname
  rw [if_pos hsame]
  exact evolves_setClass hname hdecl

/-- Interning a type variable lets a store evolve, and leads to a variable of that name and
declaring element. -/
lemma evolves_internParam (store : Store) (name : String) (declarer : Declarer) :
    store.Evolves (store.internParam name declarer).2 ∧
      (store.Consistent → (store.internParam name declarer).2.paramKey?
        (store.internParam name declarer).1 = some (name, declarer)) := by
  refine ⟨?_, fun h =>
    paramKey?_internParam (fun key var => (h.params_indexed key var).mp) name declarer⟩
  unfold internParam
  cases hkey : store.paramIndex.get? (name, declarer) with
  | some var => exact refl_of Evolves store
  | none =>
      let new : TypeVarId := ⟨store.params.size⟩
      let grown : Store := { store with
        params := store.params.push { name := name, declarer := declarer }
        paramIndex := store.paramIndex.insert (name, declarer) new }
      have hparamKey : ∀ var, grown.paramKey? var =
          if var = new then some (name, declarer) else store.paramKey? var :=
        store.paramKey?_pushParam name declarer _
      have hfresh : store.paramKey? new = none := by simp [paramKey?, param?, new]
      have hkeeps : store.Keeps grown := by
        refine ⟨rfl, fun _ _ hname => hname, fun var key hvar => ?_⟩
        have hold : var ≠ new := by
          rintro rfl
          simp [hfresh] at hvar
        rw [hparamKey, if_neg hold, hvar]
      refine ⟨hkeeps, fun h => h.of_keeps hkeeps h.indexed (fun key var => ?_)
        (fun var param hfound => ?_) h.declared⟩
      · rw [hparamKey]
        exact Index.get?_insert_iff h.params_indexed hkey hfresh key var
      · rw [param?, Array.getElem?_push] at hfound
        split at hfound
        · obtain rfl := Option.some.inj hfound
          simp
        · exact h.bounds var param hfound

/-- Setting bounds changes nothing but the bounds of the one variable. -/
lemma param?_of_setBounds {var : TypeVarId} {bounds : List Ty}
    (hdone : store.setBounds var bounds = .ok after) :
    ∃ param, store.param? var = some param ∧
      after = { store with
        params := store.params.setIfInBounds var.index { param with bounds := bounds } } ∧
      ∀ other, after.param? other =
        if other = var then some { param with bounds := bounds } else store.param? other := by
  unfold setBounds at hdone
  cases hvar : store.param? var with
  | none => simp [knownParam, hvar] at hdone
  | some param =>
      simp only [knownParam, hvar, ok_bind, pure_eq_ok, Except.ok.injEq] at hdone
      exact ⟨param, rfl, hdone.symm, hdone ▸
        param?_setParam ⟨param, hvar⟩ { param with bounds := bounds } store.paramIndex⟩

/-- Setting bounds does not touch what identifies a type variable. -/
lemma paramKey?_of_setBounds {var : TypeVarId} {bounds : List Ty}
    (hdone : store.setBounds var bounds = .ok after) (other : TypeVarId) :
    after.paramKey? other = store.paramKey? other := by
  obtain ⟨param, hvar, -, hparam⟩ := param?_of_setBounds hdone
  by_cases hother : other = var
  · simp [paramKey?, hparam, hother, hvar]
  · simp [paramKey?, hparam, hother]

/-- Setting proper bounds lets a store evolve. -/
lemma evolves_setBounds {var : TypeVarId} {bounds : List Ty}
    (hbounds : ∀ bound ∈ bounds, store.Proper bound)
    (hdone : store.setBounds var bounds = .ok after) : store.Evolves after := by
  obtain ⟨param, hvar, hafter, hparam⟩ := param?_of_setBounds hdone
  have hparamKey := paramKey?_of_setBounds hdone
  have hkeeps : store.Keeps after := by
    refine ⟨by rw [hafter], fun id name hname => ?_, fun other key hkey => ?_⟩
    · rw [← hname, hafter]
      rfl
    · rw [hparamKey, hkey]
  refine ⟨hkeeps, fun h => h.of_keeps hkeeps (fun name id => ?_) (fun key other => ?_)
    (fun other found hfound => ?_) fun id decl hdecl => ?_⟩
  · rw [hafter]
    exact h.indexed name id
  · rw [hparamKey, ← h.params_indexed, hafter]
  · rw [hparam] at hfound
    split at hfound
    · rw [← Option.some.inj hfound]
      exact hbounds
    · exact h.bounds other found hfound
  · rw [hafter] at hdecl
    exact h.declared id decl hdecl

end Store

end JavaGenerics
