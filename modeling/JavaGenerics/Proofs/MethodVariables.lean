import JavaGenerics.Proofs.ConsistentLoading
import JavaGenerics.Proofs.Mentions

/-!
# The type variables of methods

A method declares type variables of its own, and each is identified by its name, the class of the
method and the **name** of the method.  That is not enough to tell overloads apart: what the
signature of one says about its variables is overwritten when the type of another one is found.

* `Store.ChangesOnly` — known type variables keep their identity, and all but those identified by
  the given keys keep their bounds.  Like the other relations between stores it is composed along a
  sequence of steps.
* `Loader.changes_loadClass`, `Loader.changes_loadMethod` — **loading changes the variables that the
  declaration lists, and no others.**
* `Store.method_variable_shared_iff` — **the type of another method has a variable in common with
  that of the first one exactly if both methods are of the same class and the same name and list a
  parameter of the same name.**  If they are not, the bounds of the variable stay.
-/

namespace JavaGenerics

open Loading

namespace Store

lemma mem_paramKeys_ofMethod {owner owner' : ClassId} {name name' paramName : String}
    {params : List ParamSig} :
    (paramName, Declarer.ofMethod owner name) ∈ paramKeys (.ofMethod owner' name') params ↔
      owner' = owner ∧ name' = name ∧ paramName ∈ params.map ParamSig.name := by
  simp only [paramKeys, List.mem_map, Prod.mk.injEq, Declarer.ofMethod.injEq]
  constructor
  · rintro ⟨param, hparam, hname, howner, hmethod⟩
    exact ⟨howner, hmethod, param, hparam, hname⟩
  · rintro ⟨howner, hmethod, param, hparam, hname⟩
    exact ⟨param, hparam, hname, howner, hmethod⟩

/-- No method lists a variable that a class declares. -/
lemma not_mem_paramKeys_ofClass {owner id : ClassId} {name paramName : String}
    {params : List ParamSig} :
    (paramName, Declarer.ofMethod owner name) ∉ paramKeys (.ofClass id) params := by
  simp [paramKeys]

/-- Known type variables keep what identifies them, and nothing changes about those that are not
identified by one of the keys. -/
structure ChangesOnly (keys : List (String × Declarer)) (store after : Store) : Prop where
  identities : ∀ var key, store.paramKey? var = some key → after.paramKey? var = some key
  others : ∀ var key, store.paramKey? var = some key → key ∉ keys →
    after.param? var = store.param? var

variable {store after : Store} {keys : List (String × Declarer)}

instance : IsPreorder Store (ChangesOnly keys) where
  refl _ := ⟨fun _ _ => id, fun _ _ _ _ => rfl⟩
  trans _ _ _ hab hbc :=
    ⟨fun var key hkey => hbc.identities var key (hab.identities var key hkey),
      fun var key hkey hother => (hbc.others var key (hab.identities var key hkey) hother).trans
        (hab.others var key hkey hother)⟩

/-! ## What each step changes -/

lemma paramKey?_of_params_eq (h : after.params = store.params) :
    after.paramKey? = store.paramKey? :=
  funext fun var => by rw [paramKey?, paramKey?, param?_of_params_eq h]

lemma changesOnly_of_params_eq (h : after.params = store.params) :
    store.ChangesOnly keys after where
  identities var _ hkey := by rw [paramKey?_of_params_eq h, hkey]
  others var _ _ _ := congrFun (param?_of_params_eq h) var

/-- A new variable is none of those that are known. -/
lemma changesOnly_internParam (store : Store) (name : String) (declarer : Declarer) :
    store.ChangesOnly keys (store.internParam name declarer).2 := by
  unfold internParam
  cases hkey : store.paramIndex.get? (name, declarer) with
  | some var => exact refl_of (ChangesOnly keys) store
  | none =>
      set grown : Store := { store with
        params := store.params.push { name := name, declarer := declarer }
        paramIndex := store.paramIndex.insert (name, declarer) ⟨store.params.size⟩ }
      have hold : ∀ var key, store.paramKey? var = some key →
          grown.param? var = store.param? var := by
        intro var key hvar
        obtain ⟨param, hparam, -⟩ := Option.map_eq_some_iff.mp hvar
        have hlt : var.index < store.params.size := (Array.getElem?_eq_some_iff.mp hparam).choose
        rw [param?, Array.getElem?_push, if_neg hlt.ne]
        rfl
      refine ⟨fun var key hvar => ?_, fun var key hvar _ => hold var key hvar⟩
      rw [paramKey?, hold var key hvar]
      exact hvar

lemma changesOnly_setBounds {var : TypeVarId} {key : String × Declarer} {bounds : List Ty}
    (hvar : store.paramKey? var = some key) (hkey : key ∈ keys)
    (hdone : store.setBounds var bounds = .ok after) : store.ChangesOnly keys after := by
  obtain ⟨_, -, -, hparam⟩ := param?_of_setBounds hdone
  refine ⟨fun other other' hother => ?_, fun other key' hother hkey' => ?_⟩
  · rw [paramKey?_of_setBounds hdone, hother]
  · rw [hparam, if_neg]
    rintro rfl
    rw [hvar, Option.some.injEq] at hother
    exact hkey' (hother ▸ hkey)

end Store

namespace Loading.OnlyMentions

variable {α : Type} {program : Loading α} {keys : List (String × Declarer)}

/-- To mention classes does not change type variables. -/
lemma changesOnly (h : OnlyMentions program) (store : Store) :
    Leaves (Store.ChangesOnly keys) program store fun _ _ => True :=
  ⟨Store.changesOnly_of_params_eq (h.mentions store).1.params_eq.1, fun _ _ => trivial⟩

end Loading.OnlyMentions

namespace Loader

variable {keys : List (String × Declarer)}

lemma changes_internParams (declarer : Declarer) : ∀ (params : List ParamSig) (scope : Scope)
    (store : Store),
    Leaves (Store.ChangesOnly keys) (internParams declarer params scope) store fun _ _ => True
  | [], scope, store => .pure trivial
  | param :: rest, scope, store => by
    rw [internParams]
    refine (Leaves.modifyGet (store.changesOnly_internParam param.name declarer) trivial :
      Leaves (Store.ChangesOnly keys) (Loading.internParam param.name declarer) store
        fun _ _ => True).bind fun var after _ _ => ?_
    exact (changes_internParams declarer rest _ after).bind fun _ _ _ _ => .pure trivial

lemma changes_setParamBounds (scope : Scope) : ∀ (params : List ParamSig) (vars : List TypeVarId)
    (store : Store), (∀ var ∈ vars, ∃ key ∈ keys, store.paramKey? var = some key) →
    Leaves (Store.ChangesOnly keys) (setParamBounds scope params vars) store fun _ _ => True
  | [], _, store, _ => .pure trivial
  | _ :: _, [], store, _ => .pure trivial
  | param :: params, var :: vars, store, hvars => by
    rw [setParamBounds]
    refine ((onlyMentions_denoteAll scope param.bounds).changesOnly store).bind
      fun bounds after h₁ _ => ?_
    obtain ⟨key, hkey, hvar⟩ := hvars var (by simp)
    have hchange : Leaves (Store.ChangesOnly keys) (change (·.setBounds var bounds)) after
        fun _ _ => True :=
      .change fun _ hset =>
        ⟨Store.changesOnly_setBounds (h₁.identities var key hvar) hkey hset, trivial⟩
    refine hchange.bind fun _ after' h₂ _ => changes_setParamBounds scope params vars after' ?_
    intro other hother
    obtain ⟨key', hkey', hother'⟩ := hvars other (by simp [hother])
    exact ⟨key', hkey', h₂.identities _ _ (h₁.identities _ _ hother')⟩

lemma changes_declareParams (params : List ParamSig) (declarer : Declarer) {scope : Scope}
    {store : Store} (h : store.Consistent) (hscope : scope.KnownIn store) :
    Leaves (Store.ChangesOnly (Store.paramKeys declarer params))
      (declareParams params declarer scope) store fun _ _ => True := by
  unfold declareParams
  have hintern : Leaves (Store.ChangesOnly (Store.paramKeys declarer params))
      (internParams declarer params scope) store fun declared after =>
        after.AreParams declarer params declared.1 :=
    ⟨(changes_internParams declarer params scope store).1, fun declared hdeclared =>
      ((evolves_internParams declarer params scope store h hscope).2 declared hdeclared).1⟩
  refine hintern.bind fun declared after _ hvars => ?_
  refine (changes_setParamBounds _ params _ after fun var hvar => ?_).bind
    fun _ _ _ _ => .pure trivial
  obtain ⟨param, hparam, hkey⟩ := hvars.exists_of_mem hvar
  exact ⟨_, List.mem_map_of_mem hparam, hkey⟩

/-- **Finding the type of a method changes the variables that it lists, and no others**, wherever
that stops. -/
theorem changes_loadMethod (owner : ClassId) (name : String) (sig : MethodSig) {store : Store}
    (h : store.Consistent) :
    Leaves (Store.ChangesOnly (Store.paramKeys (.ofMethod owner name) sig.params))
      (loadMethod owner name sig) store fun _ _ => True := by
  rw [loadMethod_eq]
  refine (leaves_requireClass owner store).bind fun _ after _ hafter => ?_
  rw [hafter]
  refine .get_bind ?_
  refine (changes_declareParams sig.params (.ofMethod owner name) h
    (Scope.knownIn_ofClass store owner)).bind fun declared store₁ _ _ => ?_
  refine ((onlyMentions_denoteAll declared.2 sig.parameters).changesOnly store₁).bind
    fun _ store₂ _ _ => ?_
  refine ((onlyMentions_denoteResult declared.2 sig.result).changesOnly store₂).bind
    fun _ store₃ _ _ => ?_
  exact ((onlyMentions_denoteAll declared.2 sig.throws).changesOnly store₃).bind
    fun _ _ _ _ => .pure trivial

/-- **Loading a class changes the variables that it lists, and no others**, wherever that stops. -/
theorem changes_loadClass (name : String) (kind : DeclKind) (sig : ClassSig) {store : Store}
    (h : store.Consistent) :
    Leaves (Store.ChangesOnly (Store.paramKeys (.ofClass (store.internClass name).1) sig.params))
      (loadClass name kind sig) store fun _ _ => True := by
  rw [loadClass_eq]
  set keys := Store.paramKeys (.ofClass (store.internClass name).1) sig.params
  have hintern : Leaves (Store.ChangesOnly keys) (Loading.internClass name) store fun id after =>
      id = (store.internClass name).1 ∧ store.Evolves after :=
    .modifyGet (Store.changesOnly_of_params_eq
      (Store.Mentions.params_eq (.single (.interned store name))).1)
      ⟨rfl, (store.evolves_internClass name).1⟩
  refine hintern.bind fun id store₁ _ ⟨hid, h₁⟩ => ?_
  subst hid
  have hcons₁ := h₁.consistent h
  have houter : Leaves (Store.ChangesOnly keys) (internOuter name) store₁ fun _ after =>
      store₁.Evolves after :=
    ⟨((onlyMentions_internOuter name).changesOnly store₁).1, fun _ _ =>
      (evolves_internOuter name hcons₁).1⟩
  refine houter.bind fun enclosing store₂ _ h₂ => ?_
  refine .get_bind ?_
  refine (changes_declareParams sig.params (.ofClass _) (h₂.consistent hcons₁)
    (knownIn_scopeAround store₂ enclosing)).bind fun declared store₃ _ _ => ?_
  refine ((onlyMentions_denoteSuperclass declared.2 kind sig.superclass).changesOnly store₃).bind
    fun _ store₄ _ _ => ?_
  refine ((onlyMentions_denoteClasses declared.2 sig.interfaces).changesOnly store₄).bind
    fun _ store₅ _ _ => ?_
  refine (Leaves.change fun after hdone => ⟨?_, trivial⟩ :
    Leaves (Store.ChangesOnly keys) _ store₅ fun _ _ => True).bind fun _ _ _ _ => .pure trivial
  obtain ⟨_, -, rfl⟩ := Store.exists_of_redeclareClass hdone
  exact Store.changesOnly_of_params_eq rfl

end Loader

namespace Store

/-- **What methods share.**  A method of a consistent store is translated, other things are loaded,
and another method is translated.  Then a type variable of the first method is one of the second
method exactly if both are of the same class and the same name and the second one lists a parameter
of the name that the variable has.  If it does not, the variable is after the second translation
what it was before, its bounds included, also if that translation fails; and loading a class never
changes it. -/
theorem method_variable_shared_iff {start earlier now later : Store} (hstart : start.Consistent)
    (hearlier : start.Reaches earlier) {owner : ClassId} {name : String} {sig : MethodSig}
    {method : MethodTy}
    (hmethod : runOn (Loader.loadMethod owner name sig) earlier = (.ok method, now))
    (hlater : now.Reaches later) (owner' : ClassId) (name' : String) (sig' : MethodSig) :
    ∀ var ∈ method.params, ∃ param ∈ sig.params,
      let shared := owner' = owner ∧ name' = name ∧ param.name ∈ sig'.params.map ParamSig.name
      later.paramKey? var = some (param.name, .ofMethod owner name) ∧
      (∀ method', (runOn (Loader.loadMethod owner' name' sig') later).1 = .ok method' →
        (var ∈ method'.params ↔ shared)) ∧
      (¬ shared → (runOn (Loader.loadMethod owner' name' sig') later).2.param? var =
        later.param? var) ∧
      ∀ name kind sig, (runOn (Loader.loadClass name kind sig) later).2.param? var =
        later.param? var := by
  intro var hvar
  have hcons := (hearlier.evolves hstart).consistent hstart
  obtain ⟨hevolves, htyped⟩ := Loader.evolves_loadMethod owner name sig hcons
  rw [hmethod] at hevolves htyped
  obtain ⟨hparams, -⟩ := htyped method rfl
  have hcons' := hevolves.consistent hcons
  have hmeanwhile := hlater.evolves hcons'
  have hcons'' := hmeanwhile.consistent hcons'
  obtain ⟨param, hparam, hkey⟩ := (hparams.mono hmeanwhile.keeps).exists_of_mem hvar
  refine ⟨param, hparam, hkey, fun method' hmethod' => ?_, fun hother => ?_, fun name kind sig => ?_⟩
  · obtain ⟨hevolves', htyped'⟩ := Loader.evolves_loadMethod owner' name' sig' hcons''
    rw [← mem_paramKeys_ofMethod]
    exact (htyped' method' hmethod').1.mem_iff (hevolves'.consistent hcons'')
      (hevolves'.keeps.params _ _ hkey)
  · rw [← mem_paramKeys_ofMethod] at hother
    exact (Loader.changes_loadMethod owner' name' sig' hcons'').1.others var _ hkey hother
  · exact (Loader.changes_loadClass name kind sig hcons'').1.others var _ hkey
      not_mem_paramKeys_ofClass

/-- The signature of a class with no parameters and no interfaces. -/
def utilSig : ClassSig where
  params := []
  superclass := objectSig
  interfaces := []

/-- The core classes and a class whose methods are to be translated. -/
def withUtil : Store :=
  (runOn (Loader.loadClass "com.example.Util" .ordinary utilSig) core).2

/-- The signature of a method that returns one of its arguments.  They are all of type `T`, which
has a class of `java.lang` for its bound. -/
def choiceSig (bound : String) (arity : Nat) : MethodSig where
  params := [{
    name := "T"
    classBound := some (.cls (.mk ["java", "lang"] [.mk bound []]))
    interfaceBounds := [] }]
  parameters := List.replicate arity (.var "T")
  result := some (.var "T")
  throws := []

/-- What `pick` with one argument of a numeric type leaves behind. -/
def withPick : Store :=
  (runOn (Loader.loadMethod ⟨23⟩ "pick" (choiceSig "Number" 1)) withUtil).2

/-- A method of another name does not touch the variable. -/
theorem choose_spares_pick : ∃ method method',
    (runOn (Loader.loadMethod ⟨23⟩ "pick" (choiceSig "Number" 1)) withUtil).1 = .ok method ∧
      (runOn (Loader.loadMethod ⟨23⟩ "choose" (choiceSig "String" 2)) withPick).1 = .ok method' ∧
      ⟨1⟩ ∈ method.params ∧ ⟨1⟩ ∉ method'.params ∧
      (runOn (Loader.loadMethod ⟨23⟩ "choose" (choiceSig "String" 2)) withPick).2.param? ⟨1⟩ =
        withPick.param? ⟨1⟩ := by
  have hreaches : core.Reaches withUtil :=
    .loadClass "com.example.Util" .ordinary utilSig (.refl core)
  have hpick : runOn (Loader.loadMethod ⟨23⟩ "pick" (choiceSig "Number" 1)) withUtil =
      (.ok { params := [⟨1⟩], parameters := [.var ⟨1⟩], result := some (.var ⟨1⟩), throws := [] },
        withPick) := rfl
  refine ⟨_, _, congrArg Prod.fst hpick, rfl, by simp, ?_⟩
  obtain ⟨param, -, -, hshared, hkept, -⟩ := method_variable_shared_iff core_consistent hreaches
    hpick (.refl withPick) ⟨23⟩ "choose" (choiceSig "String" 2) ⟨1⟩ (by simp)
  exact ⟨fun hmem => absurd ((hshared _ rfl).mp hmem).2.1 (by decide),
    hkept fun h => absurd h.2.1 (by decide)⟩

/-- An overload of the same method has the very variable, and takes its bound away. -/
theorem picks_share :
    let overload := runOn (Loader.loadMethod ⟨23⟩ "pick" (choiceSig "String" 2)) withPick
    (runOn (Loader.loadMethod ⟨23⟩ "pick" (choiceSig "Number" 1)) withUtil).1.map
        MethodTy.params = .ok [⟨1⟩] ∧
      overload.1.map MethodTy.params = .ok [⟨1⟩] ∧
      (withPick.param? ⟨1⟩).map TypeParam.bounds = some [.cls core.wellKnown.number] ∧
      (overload.2.param? ⟨1⟩).map TypeParam.bounds = some [.cls core.wellKnown.string] :=
  ⟨rfl, rfl, rfl, rfl⟩

end Store

end JavaGenerics
