import JavaGenerics.Proofs.Retranslation

/-!
# Setting the bounds of parameters

The parameters of a declaration get their bounds one after the other, each as soon as its own have
been translated.  A later one may be refused then, or the rest of the declaration, and **the bounds
that are set by that time stay set.**

* `Store.BoundsSet` — some parameters have got the bounds that their signatures denote, the last one
  of them where a parameter is listed twice.  All other variables are what they were.
* `Loader.setParamBounds_run` — so it is for the parameters up to the first one whose bounds are
  refused, and the others have not been looked at.
-/

namespace JavaGenerics

open Loading

namespace Loading

lemma runOn_change (f : Store → Except DeclError Store) (store : Store) :
    runOn (change f) store =
      match f store with
      | .ok after => (.ok (), after)
      | .error error => (.error (.declaration error), store) := by
  have hget : runOn (get : Loading Store) store = (.ok store, store) := rfl
  unfold change
  rw [runOn_bind, hget]
  dsimp only
  cases f store <;> rfl

end Loading

namespace Store

variable {scope : Scope} {done : List (ParamSig × TypeVarId)} {store after later : Store}

/-- The bounds of a variable that is known can be set, and nothing else changes then. -/
lemma exists_setBounds {var : TypeVarId} (hvar : store.KnowsVar var) (bounds : List Ty) :
    ∃ after, store.setBounds var bounds = .ok after ∧ store.FillsIn after ∧ store.Grows after ∧
      after.paramKey? = store.paramKey? ∧ ∀ other, after.param? other = if other = var then
        (store.param? var).map fun old => { old with bounds := bounds } else store.param? other := by
  obtain ⟨old, hold⟩ := hvar
  obtain ⟨after, hdone⟩ : ∃ after, store.setBounds var bounds = .ok after := by
    simp [setBounds, knownParam, hold]
  obtain ⟨_, hfound, hshape, hset⟩ := param?_of_setBounds hdone
  obtain rfl := Option.some.inj (hold.symm.trans hfound)
  refine ⟨after, hdone, ?_, ?_, funext fun _ => paramKey?_of_setBounds hdone _, fun other => ?_⟩
  · rw [hshape]
    exact fillsIn_of_classes_eq rfl rfl rfl
  · rw [hshape]
    exact grows_of_size_eq rfl rfl rfl
  · rw [hset, hold, Option.map_some]

/-- The listed parameters have the bounds that their signatures denote in the scope, and nothing
else has become of the variables.  Of two entries for one variable the later one counts. -/
structure BoundsSet (scope : Scope) (done : List (ParamSig × TypeVarId)) (store after : Store) :
    Prop where
  others : ∀ var, var ∉ done.map Prod.snd → after.param? var = store.param? var
  listed : ∀ before param var behind, done = before ++ (param, var) :: behind →
    var ∉ behind.map Prod.snd →
    ∃ bounds, (Loader.denoteAll scope param.bounds).Settled after (.ok bounds) ∧
      after.param? var = (store.param? var).map fun old => { old with bounds := bounds }

/-- Bounds that are set stay set where type variables are left alone. -/
lemma BoundsSet.mono (h : BoundsSet scope done store after) (hindexed : after.Indexed)
    (hserves : after.Serves later) (hparams : later.params = after.params) :
    BoundsSet scope done store later := by
  have hparam := param?_of_params_eq hparams
  refine ⟨fun var hvar => by rw [hparam, h.others var hvar],
    fun before param var behind hsplit hlast => ?_⟩
  obtain ⟨bounds, hsettled, hbounds⟩ := h.listed before param var behind hsplit hlast
  exact ⟨bounds, hsettled.mono (Loader.onlyMentions_denoteAll scope _) hindexed hserves,
    by rw [hparam, hbounds]⟩

/-- What a listed parameter is declared as then. -/
lemma BoundsSet.exists_bounds (h : BoundsSet scope done store after)
    {before behind : List (ParamSig × TypeVarId)} {param : ParamSig} {var : TypeVarId}
    (hsplit : done = before ++ (param, var) :: behind) (hlast : var ∉ behind.map Prod.snd)
    {name : String} {declarer : Declarer} (hkey : store.paramKey? var = some (name, declarer)) :
    ∃ bounds, after.param? var = some { name := name, declarer := declarer, bounds := bounds } ∧
      (Loader.denoteAll scope param.bounds).Settled after (.ok bounds) := by
  obtain ⟨bounds, hsettled, hbounds⟩ := h.listed before param var behind hsplit hlast
  obtain ⟨old, hold, hsame⟩ := Option.map_eq_some_iff.mp hkey
  obtain ⟨rfl, rfl⟩ := Prod.mk.inj hsame
  exact ⟨bounds, by rw [hbounds, hold, Option.map_some], hsettled⟩

/-- Where no variable is listed twice, every entry counts. -/
lemma BoundsSet.exists_bounds_of_mem (h : BoundsSet scope done store after)
    (hdistinct : (done.map Prod.snd).Nodup) {param : ParamSig} {var : TypeVarId}
    (hmem : (param, var) ∈ done) {name : String} {declarer : Declarer}
    (hkey : store.paramKey? var = some (name, declarer)) :
    ∃ bounds, after.param? var = some { name := name, declarer := declarer, bounds := bounds } ∧
      (Loader.denoteAll scope param.bounds).Settled after (.ok bounds) := by
  obtain ⟨before, behind, rfl⟩ := List.append_of_mem hmem
  rw [List.map_append, List.map_cons] at hdistinct
  exact h.exists_bounds rfl (List.nodup_cons.mp hdistinct.of_append_right).1 hkey

lemma boundsSet_nil (hparams : after.params = store.params) : BoundsSet scope [] store after where
  others var _ := congrFun (param?_of_params_eq hparams) var
  listed before _ _ _ hsplit := absurd hsplit (by simp)

/-- The first parameter gets its bounds, and then the others get theirs. -/
lemma BoundsSet.cons {param : ParamSig} {var : TypeVarId} {bounds : List Ty} {middle : Store}
    (hsettled : (Loader.denoteAll scope param.bounds).Settled after (.ok bounds))
    (hmiddle : ∀ other, middle.param? other = if other = var then
      (store.param? var).map fun old => { old with bounds := bounds } else store.param? other)
    (h : BoundsSet scope done middle after) : BoundsSet scope ((param, var) :: done) store after where
  others other hother := by
    rw [List.map_cons, List.mem_cons, not_or] at hother
    rw [h.others other hother.2, hmiddle, if_neg hother.1]
  listed before param' other behind hsplit hlast := by
    rcases List.cons_eq_append_iff.mp hsplit with ⟨-, hhead⟩ | ⟨before', -, hrest⟩
    · obtain ⟨⟨rfl, rfl⟩, rfl⟩ : (param', other) = (param, var) ∧ behind = done := by
        simpa using hhead
      exact ⟨bounds, hsettled, by rw [h.others _ hlast, hmiddle, if_pos rfl]⟩
    · obtain ⟨found, hfound, hbounds⟩ := h.listed before' param' other behind hrest hlast
      refine ⟨found, hfound, ?_⟩
      rw [hbounds, hmiddle]
      split
      · rename_i hsame
        rw [hsame, Option.map_map]
        rfl
      · rfl

end Store

namespace Loader

/-- How setting bounds ends with these parameters left: there are none, or the bounds of the first
one are refused. -/
def StopsBefore (scope : Scope) (rest : List (ParamSig × TypeVarId)) (after : Store) :
    Except SignatureError Unit → Prop
  | .ok _ => rest = []
  | .error e => ∃ param var behind, rest = (param, var) :: behind ∧
      (denoteAll scope param.bounds).Settled after (.error e)

/-- **The bounds of parameters are set up to the first ones that are refused.** -/
theorem setParamBounds_run (scope : Scope) : ∀ (params : List ParamSig) (vars : List TypeVarId)
    {store after : Store} {result : Except SignatureError Unit}, vars.length = params.length →
    (∀ var ∈ vars, store.KnowsVar var) → store.Indexed →
    runOn (setParamBounds scope params vars) store = (result, after) →
    store.FillsIn after ∧ after.Indexed ∧ ∃ done rest, params.zip vars = done ++ rest ∧
      Store.BoundsSet scope done store after ∧ StopsBefore scope rest after result
  | [], [], store, _, _, _, _, hindexed, hrun => by
    obtain ⟨rfl, rfl⟩ := Prod.mk.inj hrun
    exact ⟨refl_of Store.FillsIn store, hindexed, [], [], rfl, Store.boundsSet_nil rfl, rfl⟩
  | param :: params, var :: vars, store, after, result, hlength, hvars, hindexed, hrun => by
    have hmentions := onlyMentions_denoteAll scope param.bounds
    have hleaves := (hmentions.mentions store).1
    have hsettled := hmentions.settled hindexed
    rw [setParamBounds, runOn_bind] at hrun
    rcases hbounds : runOn (denoteAll scope param.bounds) store with ⟨e | bounds, middle⟩
    · rw [hbounds] at hrun hleaves hsettled
      obtain ⟨rfl, rfl⟩ := Prod.mk.inj hrun
      exact ⟨hleaves.fillsIn, hindexed.of_grows hleaves.grows, [], _, rfl,
        Store.boundsSet_nil hleaves.params_eq.1, param, var, _, rfl,
        hsettled middle (refl_of Store.Serves middle)⟩
    · rw [hbounds] at hrun hleaves hsettled
      have hparam := Store.param?_of_params_eq hleaves.params_eq.1
      have hknown : ∀ other ∈ var :: vars, middle.KnowsVar other := fun other hother => by
        obtain ⟨found, hfound⟩ := hvars other hother
        exact ⟨found, by rw [hparam, hfound]⟩
      obtain ⟨changed, hchanged, hfills, hgrows, hkeys, hset⟩ :=
        Store.exists_setBounds (hknown var (by simp)) bounds
      dsimp only at hrun
      rw [runOn_bind, runOn_change, hchanged] at hrun
      have hindexed₁ : changed.Indexed := (hindexed.of_grows hleaves.grows).of_grows hgrows
      have hvars₁ : ∀ other ∈ vars, changed.KnowsVar other := fun other hother => by
        rw [Store.knowsVar_iff, hkeys, ← Store.knowsVar_iff]
        exact hknown other (List.mem_cons_of_mem _ hother)
      obtain ⟨hrest, hindexed₂, done, rest, hsplit, hdone, hstops⟩ :=
        setParamBounds_run scope params vars (by simpa using hlength) hvars₁ hindexed₁ hrun
      have hafter : middle.FillsIn after := trans_of Store.FillsIn hfills hrest
      exact ⟨trans_of Store.FillsIn hleaves.fillsIn hafter, hindexed₂, (param, var) :: done, rest,
        by rw [List.zip_cons_cons, hsplit, List.cons_append],
        .cons (hsettled after hafter.serves) (fun other => by rw [hset, hparam]) hdone, hstops⟩

end Loader

end JavaGenerics
