import JavaGenerics.Proofs.EnclosingScopes
import JavaGenerics.Proofs.MethodVariables
import JavaGenerics.Proofs.ParameterBounds

/-!
# What is installed where a class is loaded

To load a class, its names and its parameters are interned first, and that cannot fail.  Then its
types are translated, all in one scope, and only at the end does the declaration take the place of
what was there.  In the meantime the store has grown, and the class itself may have been mentioned.

* `Loader.Begun` — what is known once the parameters exist.  The scope is that of the outer class
  **as it was at the start**, with the parameters on top.
* `Loader.finishClass` — what remains to be done (`Loader.exists_begun`).
* `Store.serves_redeclareClass` — the declaration that is installed last does not take back what the
  types have been translated to.
* `Loader.Installed` — the class is declared as the signature says, and nothing else has changed.
* `Loader.loadClass_installs` — **so it is whenever loading succeeds**, if the names of the
  parameters are distinct.
-/

namespace JavaGenerics

open Loading

namespace Store

variable {store after : Store}

/-- Where all that is found goes on being found, classes keep their names. -/
lemma Serves.names (h : store.Serves after) (hstore : store.Consistent) (hafter : after.Consistent)
    {id : ClassId} {name : String} (hname : store.nameOf? id = some name) :
    after.nameOf? id = some name :=
  (hafter.indexed name id).mp (h.found name id ((hstore.indexed name id).mpr hname))

lemma ChangesOnly.param?_of_knowsVar (h : store.ChangesOnly [] after) {var : TypeVarId}
    (hvar : store.KnowsVar var) : after.param? var = store.param? var := by
  obtain ⟨key, hkey⟩ := knowsVar_iff.mp hvar
  exact h.others var key hkey List.not_mem_nil

/-! ## Installing a declaration -/

/-- **A declaration that is installed under its own name takes nothing back**, if it says which
class is around it wherever its name says that there is one. -/
lemma serves_redeclareClass (h : store.Consistent) {id : ClassId} {decl : ClassDecl}
    (hdone : store.redeclareClass id decl = .ok after)
    (hname : store.nameOf? id = some decl.name)
    (henclosing : outerName? decl.name ≠ none → decl.enclosing ≠ none) :
    store.Serves after ∧ after.params = store.params ∧
      ∀ other, after.class? other = if other = id then some decl else store.class? other := by
  obtain ⟨old, hold, rfl⟩ := exists_of_redeclareClass hdone
  have hsame : old.name = decl.name := by simpa [nameOf?, hold] using hname
  rw [if_pos hsame]
  set installed : Store := { store with classes := store.classes.setIfInBounds id.index decl }
  have hclass : ∀ other, installed.class? other =
      if other = id then some decl else store.class? other := by
    intro other
    rw [class?, getElem?_setClass]
    by_cases hother : other = id
    · simp [hother, hold]
    · simp [hother, Ne.symm hother]
  refine ⟨⟨rfl, fun _ _ hfound => hfound, ?_⟩, rfl, hclass⟩
  rintro other ⟨outer, found, hfound, houter⟩
  by_cases hother : other = id
  · subst hother
    obtain ⟨outerName, -, hprefix⟩ := (h.declared other found hfound).enclosing outer houter
    have hdollar : '$' ∈ decl.name.toList := by
      have hfoundName : found.name = decl.name := by simpa [nameOf?, hfound] using hname
      exact hfoundName ▸ hprefix.subset (by simp)
    have hinside : outerName? decl.name ≠ none := fun hnone =>
      outerName?_eq_none_iff.mp hnone hdollar
    obtain ⟨around, haround⟩ := Option.ne_none_iff_exists'.mp (henclosing hinside)
    exact ⟨around, decl, by rw [hclass, if_pos rfl], haround⟩
  · exact ⟨outer, found, by rw [hclass, if_neg hother, hfound], houter⟩

end Store

namespace Loader

variable {store start after : Store} {name : String} {kind : DeclKind} {sig : ClassSig}

/-! ## Up to the parameters -/

/-- The class, its outer class and its parameters have been interned, and nothing else has been
done.  `scope` is what is in sight of the declaration. -/
structure Begun (store : Store) (name : String) (params : List ParamSig) (start : Store)
    (id : ClassId) (enclosing : Option ClassId) (vars : List TypeVarId) (scope : Scope) : Prop where
  evolves : store.Evolves start
  fillsIn : store.FillsIn start
  kept : ∀ var, store.KnowsVar var → start.param? var = store.param? var
  named : start.nameOf? id = some name
  outer : enclosing.map start.nameOf? = (outerName? name).map some
  declares : start.AreParams (.ofClass id) params vars
  overlays : scope.Overlays (scopeAround store ((outerName? name).bind store.idOf?)) params vars
  known : scope.KnownIn start

/-- The fields that are recorded for a class, known or not. -/
def recordedFields (store : Store) (id : Option ClassId) : List Field :=
  ((id.bind store.class?).map ClassDecl.fields).getD []

/-- The superclass of a declaration and its interfaces. -/
def denoteSupertypes (sig : ClassSig) (scope : Scope) (kind : DeclKind) :
    Loading (Option Ty × List Ty) := do
  let superclass ← denoteSuperclass scope kind sig.superclass
  let interfaces ← denoteClasses scope sig.interfaces
  return (superclass, interfaces)

/-- The types of a declaration: its parameters get their bounds, and the supertypes are found. -/
def translateTypes (sig : ClassSig) (scope : Scope) (kind : DeclKind) (vars : List TypeVarId) :
    Loading (Option Ty × List Ty) := do
  setParamBounds scope sig.params vars
  denoteSupertypes sig scope kind

/-- What remains to be done then: the types are translated, and the declaration is completed with
them and installed. -/
def finishClass (sig : ClassSig) (scope : Scope) (id : ClassId) (decl : ClassDecl) :
    Loading ClassId := do
  let types ← translateTypes sig scope decl.kind decl.params
  Loading.change (·.redeclareClass id { decl with superclass := types.1, interfaces := types.2 })
  return id

/-- The outer class is interned. -/
lemma internOuter_run (h : store.Consistent) (name : String) :
    ∃ enclosing after,
      runOn (internOuter name) (store.internClass name).2 = (.ok enclosing, after) ∧
      store.Evolves after ∧ store.Mentions after ∧
      (∀ id decl, (store.internClass name).2.class? id = some decl → after.class? id = some decl) ∧
      enclosing.map after.nameOf? = (outerName? name).map some ∧
      scopeAround after enclosing = scopeAround store ((outerName? name).bind store.idOf?) := by
  have hfirst := (store.evolves_internClass name).1
  have hmention : store.Mentions (store.internClass name).2 := .single (.interned store name)
  unfold internOuter
  cases outerName? name with
  | none => exact ⟨none, _, rfl, hfirst, hmention, fun _ _ => id, rfl, rfl⟩
  | some outerName =>
      obtain ⟨hsecond, hnamed⟩ := (store.internClass name).2.evolves_internClass outerName
      exact ⟨some ((store.internClass name).2.internClass outerName).1, _, rfl,
        trans_of Store.Evolves hfirst hsecond, hmention.tail (.interned _ outerName),
        fun _ _ hdecl => Store.class?_internClass hdecl outerName,
        congrArg some (hnamed (hfirst.consistent h)), scopeAround_interned h name outerName⟩

/-- A class that is interned has the fields that were recorded for it before. -/
lemma recordedFields_interned (h : store.Consistent) (name : String) :
    ∃ decl, (store.internClass name).2.class? (store.internClass name).1 = some decl ∧
      decl.name = name ∧ decl.fields = recordedFields store (store.idOf? name) := by
  cases hfound : store.idOf? name with
  | some id =>
      obtain ⟨decl, hdecl, hname⟩ := Store.nameOf?_eq_some.mp ((h.indexed name id).mp hfound)
      rw [Store.internClass_of_found hfound]
      exact ⟨decl, hdecl, hname, by simp [recordedFields, hdecl]⟩
  | none =>
      rw [Store.internClass_of_not_found hfound]
      exact ⟨{ name := name }, by simp [Store.class?], rfl, rfl⟩

/-- What loading a class comes to once its outer class and its parameters are interned. -/
lemma loadClass_run {enclosing : Option ClassId} {vars : List TypeVarId} {scope : Scope}
    {middle : Store}
    (houter : runOn (internOuter name) (store.internClass name).2 = (.ok enclosing, middle))
    (hparams : runOn (internParams (.ofClass (store.internClass name).1) sig.params
      (scopeAround middle enclosing)) middle = (.ok (vars, scope), start)) :
    runOn (loadClass name kind sig) store =
      runOn (finishClass sig scope (store.internClass name).1
        { name, kind, params := vars, enclosing,
          fields := recordedFields middle (some (store.internClass name).1) }) start := by
  have hintern : runOn (Loading.internClass name) store =
      (.ok (store.internClass name).1, (store.internClass name).2) := rfl
  have hget : runOn (get : Loading Store) middle = (.ok middle, middle) := rfl
  rw [loadClass_eq, runOn_bind, hintern]
  dsimp only
  rw [runOn_bind, houter]
  dsimp only
  rw [runOn_bind, hget]
  dsimp only
  simp only [declareParams, finishClass, translateTypes, denoteSupertypes, bind_assoc, pure_bind]
  rw [runOn_bind, hparams]
  rfl

/-- **Loading a class begins with interning**, and the types are translated after that. -/
lemma exists_begun (h : store.Consistent) (name : String) (kind : DeclKind) (sig : ClassSig) :
    ∃ start id enclosing vars scope,
      Begun store name sig.params start id enclosing vars scope ∧
      runOn (loadClass name kind sig) store =
        runOn (finishClass sig scope id
          { name, kind, params := vars, enclosing,
            fields := recordedFields store (store.idOf? name) }) start := by
  obtain ⟨enclosing, middle, hrun, hevolves, hmentions, hclass, houter, haround⟩ :=
    internOuter_run h name
  have hcons := hevolves.consistent h
  set id := (store.internClass name).1
  obtain ⟨decl, hdecl, hdeclName, hfields⟩ := recordedFields_interned h name
  obtain ⟨vars, start, hparams, hclasses, hindex, hknown⟩ := internParams_run
    (.ofClass id) sig.params (scopeAround middle enclosing) middle
  obtain ⟨hevolves', hpost⟩ := evolves_internParams (.ofClass id)
    sig.params (scopeAround middle enclosing) middle hcons (knownIn_scopeAround middle enclosing)
  have hchanges : middle.ChangesOnly [] (runOn (internParams (.ofClass id) sig.params
      (scopeAround middle enclosing)) middle).2 :=
    (changes_internParams (.ofClass id) sig.params (scopeAround middle enclosing) middle).1
  rw [hparams] at hevolves' hpost hchanges
  obtain ⟨hare, hscope⟩ := hpost _ rfl
  have hnames : start.nameOf? = middle.nameOf? := funext fun id => by
    rw [Store.nameOf?, Store.nameOf?, Store.class?, Store.class?, hclasses]
  have hparam : middle.param? = store.param? := Store.param?_of_params_eq hmentions.params_eq.1
  have hrecorded : recordedFields middle (some id) = recordedFields store (store.idOf? name) := by
    rw [← hfields, recordedFields, Option.bind_some, hclass id decl hdecl, Option.map_some,
      Option.getD_some]
  refine ⟨start, id, enclosing, vars, _,
    { evolves := trans_of Store.Evolves hevolves hevolves'
      fillsIn := trans_of Store.FillsIn hmentions.fillsIn
        (Store.fillsIn_of_classes_eq hclasses hindex hknown)
      kept := fun var hvar => ?_
      named := by rw [hnames, Store.nameOf?, hclass id decl hdecl, Option.map_some, hdeclName]
      outer := by rw [hnames, houter]
      declares := hare
      overlays := haround ▸ hare.overlays (hevolves'.consistent hcons) _
      known := hscope }, ?_⟩
  · have hvar' : middle.KnowsVar var := by rwa [Store.KnowsVar, hparam]
    rw [hchanges.param?_of_knowsVar hvar', hparam]
  · rw [loadClass_run hrun hparams, hrecorded]

/-! ## The types -/

lemma onlyMentions_denoteSupertypes (sig : ClassSig) (scope : Scope) (kind : DeclKind) :
    OnlyMentions (denoteSupertypes sig scope kind) :=
  (onlyMentions_denoteSuperclass scope kind sig.superclass).bind fun _ =>
    (onlyMentions_denoteClasses scope sig.interfaces).bind fun _ => .pure _

lemma evolves_translateTypes (sig : ClassSig) {scope : Scope} (kind : DeclKind)
    (vars : List TypeVarId) (h : start.Consistent) (hscope : scope.KnownIn start) :
    Leaves Store.Evolves (translateTypes sig scope kind vars) start fun _ _ => True := by
  unfold translateTypes denoteSupertypes
  refine (evolves_setParamBounds scope sig.params vars start h hscope).bind
    fun _ store₁ h₁ _ => ?_
  have hcons₁ := h₁.consistent h
  have hscope₁ := hscope.mono h₁.keeps
  refine (evolves_denoteSuperclass kind sig.superclass hcons₁ hscope₁).bind
    fun _ store₂ h₂ _ => ?_
  exact (evolves_denoteClasses scope sig.interfaces store₂ (h₂.consistent hcons₁)
    (hscope₁.mono h₂.keeps)).bind fun _ _ _ _ => .pure trivial

/-- How the translation ends with these parameters left.  Where it succeeds, all bounds are set and
the supertypes are what their signatures denote; where it fails, the bounds of the first parameter
that is left are refused, or a supertype. -/
def Translated (sig : ClassSig) (scope : Scope) (kind : DeclKind)
    (rest : List (ParamSig × TypeVarId)) (after : Store)
    (result : Except SignatureError (Option Ty × List Ty)) : Prop :=
  rest = [] ∧ (denoteSupertypes sig scope kind).Settled after result ∨
    ∃ e, result = .error e ∧ StopsBefore scope rest after (.error e)

/-- **The types are translated one after the other, and what has been set by the time that one is
refused stays set.** -/
lemma translateTypes_run {scope : Scope} {declarer : Declarer} {vars : List TypeVarId}
    {result : Except SignatureError (Option Ty × List Ty)}
    (hdeclares : start.AreParams declarer sig.params vars) (hindexed : start.Indexed)
    (hrun : runOn (translateTypes sig scope kind vars) start = (result, after)) :
    start.FillsIn after ∧ after.Indexed ∧ ∃ done rest, sig.params.zip vars = done ++ rest ∧
      Store.BoundsSet scope done start after ∧ Translated sig scope kind rest after result := by
  have hvars : ∀ var ∈ vars, start.KnowsVar var := fun var hvar => by
    obtain ⟨param, -, hkey⟩ := hdeclares.exists_of_mem hvar
    exact Store.knowsVar_iff.mpr ⟨_, hkey⟩
  unfold translateTypes at hrun
  rw [runOn_bind] at hrun
  rcases hbounds : runOn (setParamBounds scope sig.params vars) start with ⟨result₁, middle⟩
  obtain ⟨hfills, hmiddle, done, rest, hsplit, hset, hstops⟩ :=
    setParamBounds_run scope sig.params vars hdeclares.length_eq hvars hindexed hbounds
  rw [hbounds] at hrun
  cases result₁ with
  | error e =>
      obtain ⟨rfl, rfl⟩ := Prod.mk.inj hrun
      exact ⟨hfills, hmiddle, done, rest, hsplit, hset, Or.inr ⟨e, rfl, hstops⟩⟩
  | ok _ =>
      have hsupertypes := onlyMentions_denoteSupertypes sig scope kind
      have hmentions := (hsupertypes.mentions middle).1
      have hsettled := hsupertypes.settled hmiddle _ (refl_of Store.Serves _)
      dsimp only at hrun
      rw [hrun] at hmentions hsettled
      exact ⟨trans_of Store.FillsIn hfills hmentions.fillsIn, hmiddle.of_grows hmentions.grows,
        done, rest, hsplit, hset.mono hmiddle hmentions.fillsIn.serves hmentions.params_eq.1,
        Or.inl ⟨hstops, hsettled⟩⟩

/-- What the supertypes are, one by one. -/
lemma settled_supertypes {scope : Scope} {types : Option Ty × List Ty} (hindexed : after.Indexed)
    (h : (denoteSupertypes sig scope kind).Settled after (.ok types)) :
    (kind = .interface → types.1 = none) ∧
      (kind ≠ .interface → ∃ ty, types.1 = some ty ∧
        (denoteClass scope sig.superclass).Settled after (.ok ty)) ∧
      (denoteClasses scope sig.interfaces).Settled after (.ok types.2) := by
  have hinterfaces := onlyMentions_denoteClasses scope sig.interfaces
  obtain ⟨superclass, hsuper, hrest⟩ := Settled.of_bind_ok
    (onlyMentions_denoteSuperclass scope kind sig.superclass)
    (fun _ => hinterfaces.bind fun _ => .pure _) hindexed h
  obtain ⟨interfaces, hinter, hpair⟩ :=
    Settled.of_bind_ok hinterfaces (fun _ => .pure _) hindexed hrest
  obtain rfl : (superclass, interfaces) = types := settled_pure.mp hpair
  refine ⟨fun hkind => ?_, fun hkind => ?_, hinter⟩
  · rw [denoteSuperclass, if_pos hkind] at hsuper
    exact (settled_pure.mp hsuper).symm
  · rw [denoteSuperclass, if_neg hkind, map_eq_pure_bind] at hsuper
    obtain ⟨ty, hty, hsome⟩ := Settled.of_bind_ok (onlyMentions_denoteClass scope sig.superclass)
      (fun _ => .pure _) hindexed hsuper
    exact ⟨ty, (settled_pure.mp hsome).symm, hty⟩

/-! ## The class -/

/-- **The class is declared as its signature says.**  All its types are what the parts of the
signature denote in one scope, and translating those parts once more would change nothing.  The
scope is that of the outer class before the class was loaded, with the parameters on top. -/
structure Installed (store after : Store) (name : String) (kind : DeclKind) (sig : ClassSig)
    (id : ClassId) (decl : ClassDecl) (scope : Scope) : Prop where
  found : after.idOf? name = some id
  declared : after.class? id = some decl
  named : decl.name = name
  of_kind : decl.kind = kind
  params : after.AreParams (.ofClass id) sig.params decl.params
  /-- The class around it has the name in front of the last dollar sign, if there is one. -/
  enclosing : decl.enclosing.map after.nameOf? = (outerName? name).map some
  overlays : scope.Overlays (scopeAround store ((outerName? name).bind store.idOf?)) sig.params
    decl.params
  bounds : ∀ param var, (param, var) ∈ sig.params.zip decl.params → ∃ bounds,
    after.param? var = some { name := param.name, declarer := .ofClass id, bounds := bounds } ∧
      (denoteAll scope param.bounds).Settled after (.ok bounds)
  interface_top : kind = .interface → decl.superclass = none
  superclass : kind ≠ .interface → ∃ ty, decl.superclass = some ty ∧
    (denoteClass scope sig.superclass).Settled after (.ok ty)
  interfaces : (denoteClasses scope sig.interfaces).Settled after (.ok decl.interfaces)
  fields : decl.fields = recordedFields store (store.idOf? name)
  other_classes : ∀ other, other ≠ id → ∀ old, store.class? other = some old →
    ∃ outer, after.class? other = some (old.fillIn outer)
  other_params : ∀ var, store.KnowsVar var → var ∉ decl.params →
    after.param? var = store.param? var

/-- The declaration that is installed at last takes nothing back of what the types have been
translated to. -/
lemma Begun.serves_redeclareClass {params : List ParamSig} {id : ClassId}
    {enclosing : Option ClassId} {vars : List TypeVarId} {scope : Scope} {ready : Store}
    {decl : ClassDecl} (hbegun : Begun store name params start id enclosing vars scope)
    (hready : ready.Consistent) (hnames : ready.nameOf? id = some name) (hname : decl.name = name)
    (henclosing : decl.enclosing = enclosing) (hdone : ready.redeclareClass id decl = .ok after) :
    ready.Serves after ∧ after.params = ready.params ∧
      ∀ other, after.class? other = if other = id then some decl else ready.class? other := by
  refine Store.serves_redeclareClass hready hdone (hname ▸ hnames) ?_
  rw [hname, henclosing]
  rintro hinside rfl
  exact hinside (by simpa using hbegun.outer.symm)

/-- The class around it goes by its name for good. -/
lemma Begun.outer_named {params : List ParamSig} {id : ClassId} {enclosing : Option ClassId}
    {vars : List TypeVarId} {scope : Scope}
    (hbegun : Begun store name params start id enclosing vars scope)
    (hnames : ∀ id name, start.nameOf? id = some name → after.nameOf? id = some name) :
    enclosing.map after.nameOf? = (outerName? name).map some := by
  rw [← hbegun.outer]
  refine Option.map_congr fun outer (houter : enclosing = some outer) => ?_
  have hinside := hbegun.outer.symm
  rw [houter, Option.map_some, Option.map_eq_some_iff] at hinside
  obtain ⟨outerName, -, hnamed⟩ := hinside
  rw [← hnamed, hnames outer outerName hnamed.symm]

/-- Once the parameters exist and their types are translated, the declaration can be installed. -/
lemma Begun.installed {scope : Scope} {id : ClassId} {enclosing : Option ClassId}
    {vars : List TypeVarId} {types : Option Ty × List Ty} {ready : Store}
    (hbegun : Begun store name sig.params start id enclosing vars scope) (h : store.Consistent)
    (hdistinct : (sig.params.map ParamSig.name).Nodup)
    (htypes : runOn (translateTypes sig scope kind vars) start = (.ok types, ready))
    (hdone : ready.redeclareClass id
      { name, kind, params := vars, enclosing, superclass := types.1, interfaces := types.2,
        fields := recordedFields store (store.idOf? name) } = .ok after)
    (hafter : after.Consistent) :
    Installed store after name kind sig id
      { name, kind, params := vars, enclosing, superclass := types.1, interfaces := types.2,
        fields := recordedFields store (store.idOf? name) } scope := by
  have hstart := hbegun.evolves.consistent h
  obtain ⟨hfills, hindexed, done, rest, hsplit, hset, htranslated⟩ :=
    translateTypes_run hbegun.declares hstart.sound.indexed htypes
  obtain ⟨rfl, hsettled⟩ :
      rest = [] ∧ (denoteSupertypes sig scope kind).Settled ready (.ok types) := by
    rcases htranslated with htranslated | ⟨e, habsurd, -⟩
    · exact htranslated
    · cases habsurd
  rw [List.append_nil] at hsplit
  subst hsplit
  have hevolves : start.Evolves ready := by
    have hleaves := (evolves_translateTypes sig kind vars hstart hbegun.known).1
    rwa [htypes] at hleaves
  obtain ⟨hserves, hparams, hclass⟩ := hbegun.serves_redeclareClass (hevolves.consistent hstart)
    (hevolves.keeps.names _ _ hbegun.named) rfl rfl hdone
  have hlater : start.Serves after := trans_of Store.Serves hfills.serves hserves
  have hbounds := hset.mono hindexed hserves hparams
  have hlisted : (sig.params.zip vars).map Prod.snd = vars :=
    List.map_snd_zip hbegun.declares.length_eq.le
  obtain ⟨htop, hsuper, hinterfaces⟩ := settled_supertypes hafter.sound.indexed (hsettled.mono
    (onlyMentions_denoteSupertypes sig scope kind) hindexed hserves)
  exact
    { found := hlater.found _ _ ((hstart.indexed _ _).mpr hbegun.named)
      declared := by rw [hclass, if_pos rfl]
      named := rfl
      of_kind := rfl
      params := by
        rw [Store.AreParams, Store.paramKey?_of_params_eq hparams]
        exact hbegun.declares.mono hevolves.keeps
      enclosing := hbegun.outer_named fun _ _ => hlater.names hstart hafter
      overlays := hbegun.overlays
      bounds := fun param var hmem => hbounds.exists_bounds_of_mem
        (by rw [hlisted]; exact hbegun.declares.nodup hdistinct) hmem
        (hbegun.declares.key_of_mem_zip param var hmem)
      interface_top := htop
      superclass := hsuper
      interfaces := hinterfaces
      fields := rfl
      other_classes := fun other hother old hold => by
        obtain ⟨outer, houter⟩ :=
          (trans_of Store.FillsIn hbegun.fillsIn hfills).filled other old hold
        exact ⟨outer, by rw [hclass, if_neg hother, houter]⟩
      other_params := fun var hvar hunlisted => by
        rw [hbounds.others var (by rwa [hlisted]), hbegun.kept var hvar] }

/-- **Loading a class installs exactly its signature.**  The parameters have distinct names; then
forward and mutual references among them mean the parameters themselves, whatever is in sight
around the class.  Of all that was there before, no other class changes but for a class around it
where there was none, and no other variable changes at all. -/
theorem loadClass_installs {first : Store} (hfirst : first = Store.core ∨ first = Store.collections)
    (hreaches : first.Reaches store) (hdistinct : (sig.params.map ParamSig.name).Nodup)
    {id : ClassId} (hdone : runOn (loadClass name kind sig) store = (.ok id, after)) :
    ∃ decl scope, Installed store after name kind sig id decl scope := by
  have hconsistent := Store.consistent_of_stock hfirst
  have h := (hreaches.evolves hconsistent).consistent hconsistent
  have hafter := (evolves_loadClass name kind sig h).1
  rw [hdone] at hafter
  obtain ⟨start, id', enclosing, vars, scope, hbegun, hsteps⟩ := exists_begun h name kind sig
  rw [hsteps, finishClass] at hdone
  obtain ⟨types, ready, htypes, hinstall⟩ := runOn_bind_eq_ok.mp hdone
  obtain ⟨_, installed, hchange, hreturn⟩ := runOn_bind_eq_ok.mp hinstall
  obtain ⟨rfl, rfl⟩ : id' = id ∧ installed = after := by
    have hpure : runOn (pure id') installed = (.ok id', installed) := rfl
    rw [hpure] at hreturn
    simpa using hreturn
  rw [runOn_change] at hchange
  split at hchange
  · rename_i changed hredeclare
    obtain rfl : changed = installed := congrArg Prod.snd hchange
    exact ⟨_, scope, hbegun.installed h hdistinct htypes hredeclare (hafter.consistent h)⟩
  · cases hchange

/-- A class inside of `Map<K, V>` with a parameter `K` of its own, which is bounded by itself. -/
def rangeSig : ClassSig where
  params := [{
    name := "K"
    classBound := none
    interfaceBounds := [.cls (.mk ["java", "lang"] [.mk "Comparable" [.exactly (.var "K")]])] }]
  superclass := Store.objectSig
  interfaces := [.mk ["java", "util"] [.mk "Set" [.exactly (.var "V")]]]

/-- What is left after the class has been loaded. -/
def withRange : Store :=
  (runOn (loadClass "java.util.Map$Range" .ordinary rangeSig) Store.collections).2

/-- The bound means the parameter of the class, and the interface that of the map. -/
theorem withRange_installed :
    (∃ decl scope, Installed Store.collections withRange "java.util.Map$Range" .ordinary rangeSig
      ⟨33⟩ decl scope) ∧
      (withRange.param? ⟨14⟩).any (·.bounds == [.app ⟨4⟩ [.var ⟨14⟩]]) = true ∧
      (withRange.class? ⟨33⟩).any (·.interfaces == [.app ⟨26⟩ [.var ⟨9⟩]]) = true := by
  have hok : (runOn (loadClass "java.util.Map$Range" .ordinary rangeSig) Store.collections).1 =
      .ok ⟨33⟩ := by
    decide +kernel
  exact ⟨loadClass_installs (Or.inr rfl) (.refl Store.collections) (by decide) (Prod.ext hok rfl),
    by decide +kernel, by decide +kernel⟩

end Loader

end JavaGenerics
