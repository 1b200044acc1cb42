import Mathlib.Data.List.TakeWhile
import JavaGenerics.Proofs.ConsistencyCheck
import JavaGenerics.Proofs.NamedClasses

/-!
# Loading keeps a store consistent

Loading interns placeholders, records enclosing classes and sets bounds in the middle of its
recursion, and it may fail at any point.  It may also declare classes anew that others refer to
already.

* `Scope.KnownIn` — a scope of known variables.  Every scope inside a class is one.
* `Store.AreParams` — variables that are the parameters of a declaration, and how to tell them from
  others.
* `Store.Denoting` — a proper class type, and the name of its class.
* `Store.Namings.evolves` — **what a segment of a class type denotes has the name of what the one
  before denotes, and a dollar sign, in front of its own**, so it may be recorded as nested.
* `evolves_denote`, `Loader.evolves_loadClass`, `Loader.evolves_loadField`,
  `Loader.evolves_loadMethod` — each entry point lets a consistent store evolve, wherever it stops.
* `Store.Reaches` — the stores that any sequence of such calls leads to.
* `Store.consistent_of_reaches` — **all of them are consistent**, if the first one is a stock store.
-/

namespace JavaGenerics

open Relation Loading

/-! ## Scopes -/

namespace Scope

/-- Every name in the scope stands for a variable of the store. -/
def KnownIn (scope : Scope) (store : Store) : Prop :=
  ∀ name var, scope.get? name = some var → store.KnowsVar var

variable {scope : Scope} {store after : Store}

lemma knownIn_empty : ({} : Scope).KnownIn store := by
  intro name var h
  simp [get?] at h

lemma KnownIn.mono (h : scope.KnownIn store) (hkeeps : store.Keeps after) : scope.KnownIn after :=
  fun name var hvar => hkeeps.knowsVar (h name var hvar)

lemma KnownIn.insert (h : scope.KnownIn store) {name : String} {var : TypeVarId}
    (hvar : store.KnowsVar var) : (scope.insert name var).KnownIn store := by
  intro other found hfound
  rw [get?, Scope.insert, Index.get?_insert] at hfound
  split at hfound
  · exact Option.some.inj hfound ▸ hvar
  · exact h other found hfound

lemma KnownIn.insertKnown : ∀ (vars : List TypeVarId) {scope : Scope}, scope.KnownIn store →
    (insertKnown store scope vars).KnownIn store
  | [], _, h => h
  | var :: rest, _, h => by
    rw [Scope.insertKnown]
    split
    · rename_i param hparam
      exact KnownIn.insertKnown rest (h.insert ⟨param, hparam⟩)
    · exact KnownIn.insertKnown rest h

/-- **Only known variables are in sight inside a class.** -/
lemma knownIn_ofClass (store : Store) (id : ClassId) : (ofClass store id).KnownIn store := by
  unfold ofClass
  generalize (store.enclosingChain id).reverse = chain
  suffices ∀ scope : Scope, scope.KnownIn store →
      (chain.foldl (insertParams store) scope).KnownIn store from this {} knownIn_empty
  induction chain with
  | nil => exact fun _ h => h
  | cons id rest ih =>
      intro scope h
      refine ih _ ?_
      unfold insertParams
      split
      · exact h.insertKnown _
      · exact h

end Scope

/-! ## Translating signatures -/

namespace Store

variable {store after : Store}

/-- What identifies the parameters that a declaration lists. -/
def paramKeys (declarer : Declarer) (params : List ParamSig) : List (String × Declarer) :=
  params.map fun param => (param.name, declarer)

/-- The variables are those that a declaration has for its parameters, one after the other. -/
def AreParams (store : Store) (declarer : Declarer) (params : List ParamSig)
    (vars : List TypeVarId) : Prop :=
  vars.map store.paramKey? = (paramKeys declarer params).map some

lemma AreParams.exists_of_mem {declarer : Declarer} {params : List ParamSig}
    {vars : List TypeVarId} (h : store.AreParams declarer params vars) {var : TypeVarId}
    (hvar : var ∈ vars) :
    ∃ param ∈ params, store.paramKey? var = some (param.name, declarer) := by
  have hkey : store.paramKey? var ∈ (paramKeys declarer params).map some :=
    h ▸ List.mem_map_of_mem hvar
  obtain ⟨key, hmem, hsame⟩ := List.mem_map.mp hkey
  obtain ⟨param, hparam, rfl⟩ := List.mem_map.mp hmem
  exact ⟨param, hparam, hsame.symm⟩

/-- A variable is one of the parameters exactly if it is identified as one of them. -/
lemma AreParams.mem_iff {declarer : Declarer} {params : List ParamSig} {vars : List TypeVarId}
    (h : store.AreParams declarer params vars) (hstore : store.Consistent) {var : TypeVarId}
    {key : String × Declarer} (hkey : store.paramKey? var = some key) :
    var ∈ vars ↔ key ∈ paramKeys declarer params := by
  have hlisted : key ∈ paramKeys declarer params ↔ some key ∈ vars.map store.paramKey? := by
    rw [h, List.mem_map_of_injective (Option.some_injective _)]
  rw [hlisted, List.mem_map]
  refine ⟨fun hvar => ⟨var, hvar, hkey⟩, ?_⟩
  rintro ⟨other, hother, hsame⟩
  have hfound := (hstore.params_indexed key other).mpr hsame
  rw [(hstore.params_indexed key var).mpr hkey, Option.some.injEq] at hfound
  exact hfound ▸ hother

lemma AreParams.mono {declarer : Declarer} {params : List ParamSig} {vars : List TypeVarId}
    (h : store.AreParams declarer params vars) (hkeeps : store.Keeps after) :
    after.AreParams declarer params vars := by
  refine Eq.trans (List.map_congr_left fun var hvar => ?_) h
  obtain ⟨param, -, hkey⟩ := h.exists_of_mem hvar
  rw [hkey, hkeeps.params _ _ hkey]

/-- The type is a proper class type, of the class with this name. -/
def Denoting (store : Store) (name : String) (ty : Ty) : Prop :=
  store.Proper ty ∧ ∃ id, ty.rawClass? = some id ∧ store.nameOf? id = some name

lemma Denoting.properClass {name : String} {ty : Ty} (h : store.Denoting name ty) :
    store.ProperClass ty := by
  obtain ⟨hproper, id, hraw, -⟩ := h
  exact ⟨by rw [hraw, Option.isSome_some], hproper⟩

end Store

/-! ## Types -/

/-- What is made of classes that are found and of known variables is proper. -/
lemma Ty.MadeOf.proper {scope : Scope} {store : Store} {ty : Ty}
    (h : ty.MadeOf store.Finds scope.Shows) (hstore : store.Consistent)
    (hscope : scope.KnownIn store) : store.Proper ty := by
  have hfinds : ∀ id, store.Finds id → store.Knows id := by
    rintro id (⟨p, rfl⟩ | ⟨name, hid⟩)
    · exact hstore.primitives_known p
    · exact Store.knows_iff.mpr ⟨name, (hstore.indexed name id).mp hid⟩
  induction h with
  | cls hid => exact .cls (hfinds _ hid)
  | applied hraw _ _ ihargs ihowner => exact .applied (hfinds _ hraw) ihargs ihowner
  | var hvar =>
      obtain ⟨name, hname⟩ := hvar
      exact .var (hscope name _ hname)
  | array _ ih => exact .array ih

namespace Store

/-- **Naming classes lets a consistent store evolve**, if each name stands behind that of the class
around it and a dollar sign. -/
lemma Namings.evolves {names : Option String → String → Prop} {store after : Store}
    (h : store.Namings names after) (hstore : store.Consistent)
    (hnames : ∀ outer name, names (some outer) name → (outer ++ "$").toList <+: name.toList) :
    store.Evolves after := by
  induction h with
  | refl => exact refl_of Evolves store
  | tail _ hlast ih =>
      refine trans_of Evolves ih ?_
      have hmiddle := ih.consistent hstore
      cases hlast with
      | interned _ => exact (evolves_internClass _ _).1
      | @enclosed outerName name id outer hname hid houter =>
          have hnamed := (hmiddle.indexed name id).mp hid
          have houterName := (hmiddle.indexed outerName outer).mp houter
          refine evolves_modifyClass _ id (fun _ => rfl) fun decl hdecl hproper => ?_
          have hsame : decl.name = name := by simpa [nameOf?, hdecl] using hnamed
          refine { hproper with enclosing := fun other hother => ?_ }
          cases hbefore : decl.enclosing with
          | none =>
              obtain rfl : outer = other := by simpa [hbefore] using hother
              exact ⟨outerName, houterName, hsame ▸ hnames _ _ hname⟩
          | some before =>
              obtain rfl : before = other := by simpa [hbefore] using hother
              exact hproper.enclosing before hbefore

end Store

/-- Interning a class, as a step of loading. -/
lemma evolves_internClass (name : String) {store : Store} (h : store.Consistent) :
    Leaves Store.Evolves (Loading.internClass name) store fun id after =>
      after.nameOf? id = some name :=
  .modifyGet (store.evolves_internClass name).1 ((store.evolves_internClass name).2 h)

/-- **A type that is denoted is proper.** -/
theorem evolves_denote (scope : Scope) (sig : TypeSig) (store : Store) (h : store.Consistent)
    (hscope : scope.KnownIn store) :
    Leaves Store.Evolves (denote scope sig) store fun ty after => after.Proper ty := by
  obtain ⟨hnamings, hmade⟩ := named_denote scope sig store
    (fun cls hcls _ _ hnames => ⟨cls, hcls, hnames⟩ : ∀ cls ∈ sig.classTypes, ∀ outer name,
      cls.Names outer name → sig.Names outer name)
  have hevolves : store.Evolves (runOn (denote scope sig) store).2 :=
    hnamings.evolves h fun _ _ => TypeSig.Names.begins
  exact ⟨hevolves, fun ty hty =>
    (hmade ty hty).proper (hevolves.consistent h) (hscope.mono hevolves.keeps)⟩

/-- A class type denotes a class that goes by its name. -/
theorem evolves_denoteClass (scope : Scope) (sig : ClassTypeSig) (store : Store)
    (h : store.Consistent) (hscope : scope.KnownIn store) :
    Leaves Store.Evolves (denoteClass scope sig) store fun ty after =>
      after.Denoting sig.binaryName ty := by
  obtain ⟨hnamings, hdenoted⟩ := named_denoteClass scope sig store
    (fun cls hcls _ _ hnames => ⟨cls, hcls, hnames⟩ : ∀ cls ∈ sig.classTypes, ∀ outer name,
      cls.Names outer name → (TypeSig.cls sig).Names outer name)
  have hevolves : store.Evolves (runOn (denoteClass scope sig) store).2 :=
    hnamings.evolves h fun _ _ => TypeSig.Names.begins
  have hafter := hevolves.consistent h
  refine ⟨hevolves, fun ty hty => ?_⟩
  obtain ⟨-, hmade, id, hraw, hid⟩ := hdenoted ty hty
  exact ⟨hmade.proper hafter (hscope.mono hevolves.keeps), id, hraw, (hafter.indexed _ _).mp hid⟩

namespace Loader

/-! ## Lists of signatures -/

lemma evolves_denoteAll (scope : Scope) : ∀ (sigs : List TypeSig) (store : Store),
    store.Consistent → scope.KnownIn store →
    Leaves Store.Evolves (denoteAll scope sigs) store fun types after =>
      ∀ ty ∈ types, after.Proper ty
  | [], store, _, _ => .pure (by simp)
  | sig :: rest, store, h, hscope => by
    rw [denoteAll]
    refine (evolves_denote scope sig store h hscope).bind fun ty after h₁ hty => ?_
    refine (evolves_denoteAll scope rest after (h₁.consistent h) (hscope.mono h₁.keeps)).bind
      fun types after' h₂ htypes => ?_
    exact .pure (List.forall_mem_cons.mpr ⟨hty.mono h₂.keeps, htypes⟩)

lemma evolves_denoteClasses (scope : Scope) : ∀ (sigs : List ClassTypeSig) (store : Store),
    store.Consistent → scope.KnownIn store →
    Leaves Store.Evolves (denoteClasses scope sigs) store fun types after =>
      ∀ ty ∈ types, after.ProperClass ty
  | [], store, _, _ => .pure (by simp)
  | sig :: rest, store, h, hscope => by
    rw [denoteClasses]
    refine (evolves_denoteClass scope sig store h hscope).bind fun ty after h₁ hty => ?_
    refine (evolves_denoteClasses scope rest after (h₁.consistent h) (hscope.mono h₁.keeps)).bind
      fun types after' h₂ htypes => ?_
    exact .pure (List.forall_mem_cons.mpr ⟨hty.properClass.mono h₂.keeps, htypes⟩)

/-! ## Type parameters -/

/-- **All parameters of a list have their names and their declarer, and are in sight with what was
in sight before.** -/
lemma evolves_internParams (declarer : Declarer) : ∀ (params : List ParamSig) (scope : Scope)
    (store : Store), store.Consistent → scope.KnownIn store →
    Leaves Store.Evolves (internParams declarer params scope) store fun declared after =>
      after.AreParams declarer params declared.1 ∧ declared.2.KnownIn after
  | [], scope, store, _, hscope => .pure ⟨rfl, hscope⟩
  | param :: rest, scope, store, h, hscope => by
    rw [internParams]
    obtain ⟨hevolves, hkey⟩ := store.evolves_internParam param.name declarer
    refine (Leaves.modifyGet hevolves (hkey h) :
      Leaves Store.Evolves (Loading.internParam param.name declarer) store fun var after =>
        after.paramKey? var = some (param.name, declarer)).bind fun var after h₁ hvar => ?_
    have hscope₁ : (scope.insert param.name var).KnownIn after :=
      (hscope.mono h₁.keeps).insert (Store.knowsVar_iff.mpr ⟨_, hvar⟩)
    refine (evolves_internParams declarer rest _ after (h₁.consistent h) hscope₁).bind
      fun declared after' h₂ ⟨hvars, hknown⟩ => ?_
    exact .pure ⟨congrArg₂ List.cons (h₂.keeps.params _ _ hvar) hvars, hknown⟩

lemma evolves_setParamBounds (scope : Scope) : ∀ (params : List ParamSig) (vars : List TypeVarId)
    (store : Store), store.Consistent → scope.KnownIn store →
    Leaves Store.Evolves (setParamBounds scope params vars) store fun _ _ => True
  | [], _, store, _, _ => .pure trivial
  | _ :: _, [], store, _, _ => .pure trivial
  | param :: params, var :: vars, store, h, hscope => by
    rw [setParamBounds]
    refine (evolves_denoteAll scope param.bounds store h hscope).bind
      fun bounds after h₁ hbounds => ?_
    have hchange : Leaves Store.Evolves (change (·.setBounds var bounds)) after fun _ _ => True :=
      .change fun _ hset => ⟨Store.evolves_setBounds hbounds hset, trivial⟩
    refine hchange.bind fun _ after' h₂ _ => ?_
    have h₀₂ := trans_of Store.Evolves h₁ h₂
    exact evolves_setParamBounds scope params vars after' (h₀₂.consistent h) (hscope.mono h₀₂.keeps)

lemma evolves_declareParams (params : List ParamSig) (declarer : Declarer) {scope : Scope}
    {store : Store} (h : store.Consistent) (hscope : scope.KnownIn store) :
    Leaves Store.Evolves (declareParams params declarer scope) store fun declared after =>
      after.AreParams declarer params declared.1 ∧ declared.2.KnownIn after := by
  unfold declareParams
  refine (evolves_internParams declarer params scope store h hscope).bind
    fun declared after h₁ ⟨hvars, hknown⟩ => ?_
  refine (evolves_setParamBounds _ params _ after (h₁.consistent h) hknown).bind
    fun _ after' h₂ _ => .pure ⟨hvars.mono h₂.keeps, hknown.mono h₂.keeps⟩

/-! ## Classes -/

/-- What is in front of the last dollar sign of a name. -/
lemma outerName?_eq_some_iff {name outer : String} :
    outerName? name = some outer ↔
      ∃ simple, name = outer ++ "$" ++ simple ∧ '$' ∉ simple.toList := by
  unfold outerName?
  constructor
  · intro h
    cases hdrop : name.toList.reverse.dropWhile (· != '$') with
    | nil => simp [hdrop] at h
    | cons c before =>
        rw [hdrop, Option.some.injEq] at h
        have hdollar : c = '$' := by
          have hhead := List.head?_dropWhile_not (· != '$') name.toList.reverse
          simpa [hdrop] using hhead
        have hsplit := List.takeWhile_append_dropWhile (p := (· != '$')) (l := name.toList.reverse)
        rw [hdrop, hdollar] at hsplit
        refine ⟨String.ofList (name.toList.reverse.takeWhile (· != '$')).reverse, ?_, ?_⟩
        · rw [← String.toList_inj, ← h]
          simpa using (congrArg List.reverse hsplit).symm
        · intro hmem
          rw [String.toList_ofList, List.mem_reverse] at hmem
          have hother := List.mem_takeWhile_imp hmem
          simp at hother
  · rintro ⟨simple, rfl, hsimple⟩
    have hreverse : (outer ++ "$" ++ simple).toList.reverse =
        simple.toList.reverse ++ '$' :: outer.toList.reverse := by
      simp
    rw [hreverse, List.dropWhile_append_of_pos, List.dropWhile_cons_of_neg (by simp)]
    · simp
    · intro c hc
      have hmem : c ∈ simple.toList := List.mem_reverse.mp hc
      simpa using fun hdollar : c = '$' => hsimple (hdollar ▸ hmem)

/-- The part of a name before its last dollar sign is in front of it, with the dollar sign. -/
lemma outerName?_prefix {name outer : String} (h : outerName? name = some outer) :
    (outer ++ "$").toList <+: name.toList := by
  obtain ⟨simple, rfl, -⟩ := outerName?_eq_some_iff.mp h
  exact ⟨simple.toList, by simp⟩

lemma evolves_internOuter (name : String) {store : Store} (h : store.Consistent) :
    Leaves Store.Evolves (internOuter name) store fun enclosing after =>
      ∀ outer, enclosing = some outer → ∃ outerName, after.nameOf? outer = some outerName ∧
        (outerName ++ "$").toList <+: name.toList := by
  unfold internOuter
  split
  · rename_i outerName houter
    refine (evolves_internClass outerName h).map fun id after _ hid => ?_
    rintro _ ⟨⟩
    exact ⟨outerName, hid, outerName?_prefix houter⟩
  · exact .pure (by simp)

lemma knownIn_scopeAround (store : Store) (enclosing : Option ClassId) :
    (scopeAround store enclosing).KnownIn store := by
  cases enclosing with
  | none => exact Scope.knownIn_empty
  | some outer => exact Scope.knownIn_ofClass store outer

lemma evolves_denoteSuperclass {scope : Scope} (kind : DeclKind) (sig : ClassTypeSig)
    {store : Store} (h : store.Consistent) (hscope : scope.KnownIn store) :
    Leaves Store.Evolves (denoteSuperclass scope kind sig) store fun superclass after =>
      (∀ edge, superclass = some edge → after.ProperClass edge) ∧
        (kind = .interface → superclass = none) := by
  unfold denoteSuperclass
  split
  · exact .pure (by simp)
  · rename_i hkind
    refine (evolves_denoteClass scope sig store h hscope).map fun edge after _ hedge => ⟨?_, ?_⟩
    · rintro _ ⟨⟩
      exact hedge.properClass
    · exact fun hinterface => absurd hinterface hkind

/-- The fields recorded for a class, known or not, are proper. -/
lemma proper_recordedFields {store : Store} (h : store.Consistent) (id : ClassId) :
    (∀ field ∈ ((store.class? id).map ClassDecl.fields).getD [], store.Proper field.ty) ∧
      ((((store.class? id).map ClassDecl.fields).getD []).map Field.name).Nodup := by
  cases hid : store.class? id with
  | none => simp
  | some decl => exact ⟨(h.declared id decl hid).fields, (h.declared id decl hid).fields_distinct⟩

/-- **Loading a class lets a consistent store evolve, wherever it stops**, also where the class was
declared before. -/
theorem evolves_loadClass (name : String) (kind : DeclKind) (sig : ClassSig) {store : Store}
    (h : store.Consistent) :
    Leaves Store.Evolves (loadClass name kind sig) store fun id after =>
      after.nameOf? id = some name := by
  rw [loadClass_eq]
  refine (evolves_internClass name h).bind fun id store₁ h₁ hname => ?_
  refine (evolves_internOuter name (h₁.consistent h)).bind fun enclosing store₂ h₂ houter => ?_
  have hcons₂ : store₂.Consistent := h₂.consistent (h₁.consistent h)
  refine .get_bind ?_
  refine (evolves_declareParams sig.params (.ofClass id) hcons₂
    (knownIn_scopeAround store₂ enclosing)).bind fun declared store₃ h₃ ⟨hparams, hscope⟩ => ?_
  have hcons₃ := h₃.consistent hcons₂
  refine (evolves_denoteSuperclass kind sig.superclass hcons₃ hscope).bind
    fun superclass store₄ h₄ ⟨hsuperclass, htop⟩ => ?_
  refine (evolves_denoteClasses declared.2 sig.interfaces store₄ (h₄.consistent hcons₃)
    (hscope.mono h₄.keeps)).bind fun interfaces store₅ h₅ hinterfaces => ?_
  -- What the declaration refers to was found along the way, and is kept until it is installed.
  have h₃₅ := (trans_of Store.Evolves h₄ h₅).keeps
  have h₂₅ := (trans_of Store.Evolves h₃ (trans_of Store.Evolves h₄ h₅)).keeps
  obtain ⟨hfields, hdistinct⟩ := proper_recordedFields hcons₂ id
  have hname₅ : store₅.nameOf? id = some name := h₂₅.names _ _ (h₂.keeps.names _ _ hname)
  refine (Leaves.change fun after hdone =>
    ⟨Store.evolves_redeclareClass hname₅ (fun _ => ?_) hdone, trivial⟩ :
    Leaves Store.Evolves _ store₅ fun _ _ => True).bind fun _ _ h₆ _ =>
      .pure (h₆.keeps.names _ _ hname₅)
  refine
    { supertypes := fun edge hedge => ?_
      interface_top := htop
      params := fun var hvar => ?_
      fields := fun field hfield => (hfields field hfield).mono h₂₅
      fields_distinct := hdistinct
      enclosing := fun outer hencloses => ?_ }
  · rcases Store.mem_supertypes.mp hedge with hmem | hmem
    · exact (hsuperclass edge hmem).mono h₅.keeps
    · exact hinterfaces edge hmem
  · obtain ⟨param, -, hkey⟩ := (hparams.mono h₃₅).exists_of_mem hvar
    exact ⟨param.name, hkey⟩
  · obtain ⟨outerName, houterName, hprefix⟩ := houter outer hencloses
    exact ⟨outerName, h₂₅.names _ _ houterName, hprefix⟩

/-! ## Members -/

/-- A field takes the place of the one with its name. -/
lemma properDecl_putField {store : Store} {id : ClassId} {decl : ClassDecl} {field : Field}
    (h : store.ProperDecl id decl) (hfield : store.Proper field.ty) :
    store.ProperDecl id (decl.putField field) := by
  refine { h with fields := fun other hother => ?_, fields_distinct := ?_ }
  · rcases List.mem_append.mp hother with hother | hother
    · exact h.fields other (List.mem_filter.mp hother).1
    · rw [List.mem_singleton.mp hother]
      exact hfield
  · rw [ClassDecl.putField, List.map_append, List.nodup_append]
    refine ⟨h.fields_distinct.sublist (List.filter_sublist.map _), List.nodup_singleton _, ?_⟩
    intro name hname last hlast
    obtain ⟨old, hold, rfl⟩ := List.mem_map.mp hname
    rw [List.mem_singleton.mp hlast]
    simpa using (List.mem_filter.mp hold).2

/-- **Recording a field lets a consistent store evolve, wherever it stops.** -/
theorem evolves_loadField (owner : ClassId) (name : String) (sig : TypeSig) {store : Store}
    (h : store.Consistent) :
    Leaves Store.Evolves (loadField owner name sig) store fun ty after => after.Proper ty := by
  unfold loadField
  refine (leaves_requireClass owner store).bind fun _ after _ hafter => ?_
  rw [hafter]
  refine .get_bind ?_
  refine (evolves_denote _ sig store h (Scope.knownIn_ofClass store owner)).bind
    fun ty after _ hty => ?_
  have hmodify : Leaves Store.Evolves
      (modify fun store => store.modifyClass owner (·.putField { name := name, ty := ty })) after
      fun _ _ => True :=
    .modify (after.evolves_modifyClass owner (fun _ => rfl) fun _ _ hdecl =>
      properDecl_putField hdecl hty) trivial
  exact hmodify.bind fun _ after' h' _ => .pure (hty.mono h'.keeps)

lemma evolves_denoteResult {scope : Scope} (sig : Option TypeSig) {store : Store}
    (h : store.Consistent) (hscope : scope.KnownIn store) :
    Leaves Store.Evolves (denoteResult scope sig) store fun result after =>
      ∀ ty ∈ result.toList, after.Proper ty := by
  cases sig with
  | none => exact .pure (by simp)
  | some sig =>
      exact (evolves_denote scope sig store h hscope).map fun ty after _ hty => by simpa using hty

/-- **The type of a method is found while a consistent store evolves, wherever that stops.**  Its
type parameters are those of the signature then, and all its parts are proper. -/
theorem evolves_loadMethod (owner : ClassId) (name : String) (sig : MethodSig) {store : Store}
    (h : store.Consistent) :
    Leaves Store.Evolves (loadMethod owner name sig) store fun method after =>
      after.AreParams (.ofMethod owner name) sig.params method.params ∧
        ∀ ty ∈ method.parameters ++ method.result.toList ++ method.throws, after.Proper ty := by
  rw [loadMethod_eq]
  refine (leaves_requireClass owner store).bind fun _ after _ hafter => ?_
  rw [hafter]
  refine .get_bind ?_
  refine (evolves_declareParams sig.params (.ofMethod owner name) h
    (Scope.knownIn_ofClass store owner)).bind fun declared store₁ h₁ ⟨hparams, hscope₁⟩ => ?_
  have hcons₁ := h₁.consistent h
  refine (evolves_denoteAll declared.2 sig.parameters store₁ hcons₁ hscope₁).bind
    fun parameters store₂ h₂ hparameters => ?_
  have hcons₂ := h₂.consistent hcons₁
  have hscope₂ := hscope₁.mono h₂.keeps
  refine (evolves_denoteResult sig.result hcons₂ hscope₂).bind fun result store₃ h₃ hresult => ?_
  refine (evolves_denoteAll declared.2 sig.throws store₃ (h₃.consistent hcons₂)
    (hscope₂.mono h₃.keeps)).bind fun throws store₄ h₄ hthrows => .pure
      ⟨((hparams.mono h₂.keeps).mono h₃.keeps).mono h₄.keeps, fun ty hty => ?_⟩
  rw [List.mem_append, List.mem_append] at hty
  rcases hty with (hty | hty) | hty
  · exact ((hparameters ty hty).mono h₃.keeps).mono h₄.keeps
  · exact (hresult ty hty).mono h₄.keeps
  · exact hthrows ty hty

end Loader

/-! ## Loaded stores -/

namespace Store

/-- One store leads to another by translating types inside a class, loading classes of any kind,
recording fields and finding the types of methods, in any order.  A failed attempt counts as well:
what it changed before it failed stays changed.  The scope of a type may have been taken earlier
than the type is translated. -/
inductive Reaches : Store → Store → Prop where
  | refl (store : Store) : Reaches store store
  | denote {start earlier store : Store} (owner : ClassId) (sig : TypeSig) :
      Reaches start earlier → Reaches earlier store →
        Reaches start (runOn (denote (Scope.ofClass earlier owner) sig) store).2
  | loadClass {start store : Store} (name : String) (kind : DeclKind) (sig : ClassSig) :
      Reaches start store → Reaches start (runOn (Loader.loadClass name kind sig) store).2
  | loadField {start store : Store} (owner : ClassId) (name : String) (sig : TypeSig) :
      Reaches start store → Reaches start (runOn (Loader.loadField owner name sig) store).2
  | loadMethod {start store : Store} (owner : ClassId) (name : String) (sig : MethodSig) :
      Reaches start store → Reaches start (runOn (Loader.loadMethod owner name sig) store).2

/-- **A consistent store evolves into all those it leads to.** -/
lemma Reaches.evolves {start store : Store} (h : start.Reaches store) :
    start.Consistent → start.Evolves store := by
  induction h with
  | refl store => exact fun _ => refl_of Evolves store
  | denote owner sig _ _ ihearlier ihlater =>
      intro hstart
      have hearlier := ihearlier hstart
      have hlater := ihlater (hearlier.consistent hstart)
      have hscope := (Scope.knownIn_ofClass _ owner).mono hlater.keeps
      have hnow := trans_of Evolves hearlier hlater
      exact trans_of Evolves hnow (evolves_denote _ sig _ (hnow.consistent hstart) hscope).1
  | loadClass name kind sig _ ih =>
      intro hstart
      have hnow := ih hstart
      exact trans_of Evolves hnow
        (Loader.evolves_loadClass name kind sig (hnow.consistent hstart)).1
  | loadField owner name sig _ ih =>
      intro hstart
      have hnow := ih hstart
      exact trans_of Evolves hnow
        (Loader.evolves_loadField owner name sig (hnow.consistent hstart)).1
  | loadMethod owner name sig _ ih =>
      intro hstart
      have hnow := ih hstart
      exact trans_of Evolves hnow
        (Loader.evolves_loadMethod owner name sig (hnow.consistent hstart)).1

/-- **Whatever is loaded into a stock store, and wherever loading fails, the store is consistent,
and no class lies inside itself.** -/
theorem consistent_of_reaches {start store : Store} (hstart : start = core ∨ start = collections)
    (h : start.Reaches store) :
    store.Consistent ∧ ∀ id, ¬ TransGen store.EnclosedBy id id := by
  have hconsistent : start.Consistent := by
    rcases hstart with rfl | rfl
    · exact core_consistent
    · exact collections_consistent
  have hloaded := (h.evolves hconsistent).consistent hconsistent
  exact ⟨hloaded, hloaded.enclosing_acyclic⟩

/-! ## A field and the class it names -/

def objectSig : ClassTypeSig :=
  .mk ["java", "lang"] [.mk "Object" []]

/-- The signature of a class with one type parameter. -/
def crateSig : ClassSig where
  params := [{ name := "T", classBound := some (.cls objectSig), interfaceBounds := [] }]
  superclass := objectSig
  interfaces := []

/-- The lid of a crate, as a field of the crate names it. -/
def lidSig : TypeSig :=
  .cls (.mk ["shop"] [.mk "Crate" [.exactly (.var "T")], .mk "Lid" []])

/-- The signature of a class that names a variable which is not in sight. -/
def strayingSig : ClassSig where
  params := []
  superclass := objectSig
  interfaces := [.mk ["java", "lang"] [.mk "Comparable" [.exactly (.var "S")]]]

/-- The collection classes, a crate and its field.  The field names the lid before that is
loaded. -/
def withCrate : Store :=
  (runOn (Loader.loadField ⟨33⟩ "lid" lidSig)
    (runOn (Loader.loadClass "shop.Crate" .ordinary crateSig) collections).2).2

/-- What is left after loading the lid has failed. -/
def withCrateAndLid : Store :=
  (runOn (Loader.loadClass "shop.Crate$Lid" .ordinary strayingSig) withCrate).2

/-- The lid is a class inside the crate, though loading it has failed. -/
theorem withCrateAndLid_consistent :
    (runOn (Loader.loadClass "shop.Crate$Lid" .ordinary strayingSig) withCrate).1.isOk = false ∧
      withCrateAndLid.idOf? "shop.Crate$Lid" = some ⟨34⟩ ∧
      withCrateAndLid.EnclosedBy ⟨34⟩ ⟨33⟩ ∧
      (withCrateAndLid.Consistent ∧ ∀ id, ¬ TransGen withCrateAndLid.EnclosedBy id id) := by
  have hreaches : collections.Reaches withCrateAndLid :=
    .loadClass _ _ _ (.loadField _ _ _ (.loadClass _ _ _ (.refl collections)))
  refine ⟨by decide +kernel, by decide +kernel, ?_, consistent_of_reaches (Or.inr rfl) hreaches⟩
  have henclosing : (withCrateAndLid.class? ⟨34⟩).bind ClassDecl.enclosing = some ⟨33⟩ := by
    decide +kernel
  exact Option.bind_eq_some_iff.mp henclosing

end Store

end JavaGenerics
