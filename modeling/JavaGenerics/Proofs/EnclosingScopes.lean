import JavaGenerics.Proofs.Placeholders

/-!
# What is in sight around a declaration

Before a declaration is looked at, its own name and the name in front of its last dollar sign are
interned, and its parameters are put in front of those of the class around it.

* `Store.enclosingChainFrom_eq_some` — every walk along the enclosing links that may follow more of
  them than there are classes finds the same chain.
* `Scope.ofClass_of_grown` — **classes that are added do not change what is in sight inside those
  that were there**, though a walk may follow more links in a larger store.
* `scopeAround_interned` — so it makes no difference whether the names have been interned yet.
* `Scope.Overlays` — parameters on top of a scope, and `Loader.internParams_run`, which puts them
  there.
-/

namespace JavaGenerics

open Relation Loading

/-! ## Names of enclosing classes -/

lemma outerName?_eq_none_iff {name : String} : outerName? name = none ↔ '$' ∉ name.toList := by
  unfold outerName?
  cases hdrop : name.toList.reverse.dropWhile (· != '$') with
  | nil =>
      rw [List.dropWhile_eq_nil_iff] at hdrop
      refine iff_of_true rfl fun hmem => ?_
      simpa using hdrop '$' (by simpa using hmem)
  | cons c before =>
      refine iff_of_false (by simp) (not_not_intro ?_)
      have hhead := List.head?_dropWhile_not (· != '$') name.toList.reverse
      have hmem : c ∈ name.toList.reverse :=
        (List.dropWhile_sublist _).subset (by rw [hdrop]; simp)
      obtain rfl : c = '$' := by simpa [hdrop] using hhead
      simpa using hmem

namespace Store

variable {store grown : Store}

/-! ## Chains of enclosing classes -/

/-- **A walk that may follow one link more than there are classes that have not been passed does not
run out of links.** -/
lemma exists_enclosingChainFrom : ∀ (links : Nat) (passed : List ClassId) (id : ClassId),
    passed.Nodup → (∀ other ∈ passed, store.Knows other) → store.size < links + passed.length →
    ∃ chain, store.enclosingChainFrom links passed id = some chain
  | 0, passed, id, hnodup, hknown, hlinks =>
    absurd (length_le_size hnodup hknown) (by omega)
  | links + 1, passed, id, hnodup, hknown, hlinks => by
    rw [enclosingChainFrom]
    cases hid : store.class? id with
    | none => exact ⟨_, rfl⟩
    | some decl =>
        dsimp only
        split
        · exact ⟨_, rfl⟩
        · rename_i hnew
          cases decl.enclosing with
          | none => exact ⟨_, rfl⟩
          | some outer =>
              obtain ⟨chain, hchain⟩ := exists_enclosingChainFrom links (id :: passed) outer
                (List.nodup_cons.mpr ⟨by simpa using hnew, hnodup⟩)
                (List.forall_mem_cons.mpr ⟨⟨decl, hid⟩, hknown⟩) (by rw [List.length_cons]; omega)
              exact ⟨id :: chain, congrArg (Option.map (id :: ·)) hchain⟩

/-- A walk that has not run out of links finds the same chain if it may follow more. -/
lemma enclosingChainFrom_of_more {more : Nat} : ∀ {links : Nat} {passed : List ClassId}
    {id : ClassId} {chain : List ClassId}, store.enclosingChainFrom links passed id = some chain →
    store.enclosingChainFrom (links + more) passed id = some chain
  | 0, _, _, _, h => by simp [enclosingChainFrom] at h
  | links + 1, passed, id, chain, h => by
    rw [enclosingChainFrom] at h
    rw [Nat.add_right_comm, enclosingChainFrom]
    cases hid : store.class? id with
    | none => simpa [hid] using h
    | some decl =>
        simp only [hid] at h ⊢
        split
        · rename_i hmem
          rwa [if_pos hmem] at h
        · rename_i hnew
          rw [if_neg hnew] at h
          cases houter : decl.enclosing with
          | none => simpa [houter] using h
          | some outer =>
              simp only [houter, Option.map_eq_some_iff] at h ⊢
              obtain ⟨rest, hrest, rfl⟩ := h
              exact ⟨rest, enclosingChainFrom_of_more hrest, rfl⟩

/-- Every walk that may follow more links than there are classes finds the chain of a class. -/
lemma enclosingChainFrom_eq_some {links : Nat} (hlinks : store.size < links) (id : ClassId) :
    store.enclosingChainFrom links [] id = some (store.enclosingChain id) := by
  obtain ⟨chain, hchain⟩ := store.exists_enclosingChainFrom (store.size + 1) [] id List.nodup_nil
    (by simp) (by simp)
  obtain ⟨more, rfl⟩ := Nat.exists_eq_add_of_le (Nat.succ_le_of_lt hlinks)
  rw [enclosingChain, hchain]
  exact enclosingChainFrom_of_more hchain

/-- Where all classes around known ones are known, the chain of a known class is made of known
classes, and it is the same in a larger store. -/
lemma enclosingChainFrom_of_grown
    (hclass : ∀ id decl, store.class? id = some decl → grown.class? id = some decl)
    (hclosed : ∀ id outer, store.EnclosedBy id outer → store.Knows outer) :
    ∀ (links : Nat) (passed : List ClassId) (id : ClassId), store.Knows id →
      grown.enclosingChainFrom links passed id = store.enclosingChainFrom links passed id ∧
        ∀ chain, store.enclosingChainFrom links passed id = some chain →
          ∀ other ∈ chain, store.Knows other
  | 0, _, _, _ => by simp [enclosingChainFrom]
  | links + 1, passed, id, ⟨decl, hdecl⟩ => by
    rw [enclosingChainFrom, enclosingChainFrom, hdecl, hclass id decl hdecl]
    dsimp only
    split
    · simp
    · cases houter : decl.enclosing with
      | none => simpa using ⟨decl, hdecl⟩
      | some outer =>
          obtain ⟨hsame, hknown⟩ := enclosingChainFrom_of_grown hclass hclosed links (id :: passed)
            outer (hclosed id outer ⟨decl, hdecl, houter⟩)
          refine ⟨congrArg (Option.map (id :: ·)) hsame, fun chain hchain => ?_⟩
          obtain ⟨rest, hrest, rfl⟩ := Option.map_eq_some_iff.mp hchain
          exact List.forall_mem_cons.mpr ⟨⟨decl, hdecl⟩, hknown rest hrest⟩

/-- In a consistent store the classes around known ones are known. -/
lemma Consistent.knows_outer (h : store.Consistent) {id outer : ClassId}
    (henclosed : store.EnclosedBy id outer) : store.Knows outer := by
  obtain ⟨decl, hdecl, houter⟩ := henclosed
  obtain ⟨name, hname, -⟩ := (h.declared id decl hdecl).enclosing outer houter
  exact knows_iff.mpr ⟨name, hname⟩

end Store

/-! ## Scopes inside classes -/

namespace Scope

variable {store grown : Store}

lemma insertKnown_of_params_eq (hparams : grown.params = store.params) :
    ∀ (vars : List TypeVarId) (scope : Scope),
      insertKnown grown scope vars = insertKnown store scope vars
  | [], _ => rfl
  | var :: rest, scope => by
    rw [insertKnown, insertKnown, Store.param?_of_params_eq hparams]
    split <;> exact insertKnown_of_params_eq hparams rest _

/-- **In a consistent store the scope inside a class does not depend on what is added.** -/
lemma ofClass_of_grown (h : store.Consistent)
    (hclass : ∀ id decl, store.class? id = some decl → grown.class? id = some decl)
    (hsize : store.size ≤ grown.size) (hparams : grown.params = store.params) {id : ClassId}
    (hid : store.Knows id) : ofClass grown id = ofClass store id := by
  obtain ⟨hsame, hknown⟩ := Store.enclosingChainFrom_of_grown hclass
    (fun _ _ => h.knows_outer) (grown.size + 1) [] id hid
  have hchain := store.enclosingChainFrom_eq_some (Nat.lt_succ_of_le hsize) id
  rw [hchain] at hsame
  rw [ofClass, ofClass, Store.enclosingChain, hsame, Option.getD_some]
  refine List.foldl_ext _ _ _ fun scope other hother => ?_
  obtain ⟨decl, hdecl⟩ := hknown _ hchain other (List.mem_reverse.mp hother)
  rw [insertParams, insertParams, hdecl, hclass other decl hdecl]
  exact insertKnown_of_params_eq hparams decl.params scope

/-- Nothing is in sight inside a class without parameters that does not lie inside another one. -/
lemma ofClass_of_blank {id : ClassId} {decl : ClassDecl} (hdecl : store.class? id = some decl)
    (hparams : decl.params = []) (henclosing : decl.enclosing = none) : ofClass store id = {} := by
  have hchain : store.enclosingChain id = [id] := by
    simp [Store.enclosingChain, Store.enclosingChainFrom, hdecl, henclosing]
  rw [ofClass, hchain]
  simp [insertParams, hdecl, hparams, insertKnown]

end Scope

namespace Loader

/-- **What is in sight around a declaration is what was in sight in the class with the outer name
before the two names were interned**, and nothing if there was no such class. -/
lemma scopeAround_interned {store : Store} (h : store.Consistent) (name outerName : String) :
    let interned := (store.internClass name).2.internClass outerName
    scopeAround interned.2 (some interned.1) = scopeAround store (store.idOf? outerName) := by
  intro interned
  have hnamings : store.Namings (fun outer _ => outer = none) interned.2 :=
    .tail (.single (.interned store rfl)) (.interned _ rfl)
  have hindexed : store.Indexed := fun other id hid =>
    Store.knows_iff.mpr ⟨other, (h.indexed other id).mp hid⟩
  have hintroduces := hnamings.introduces hindexed
  have hfind : interned.2.idOf? outerName = some interned.1 := by
    rw [Store.idOf?_internClass, if_pos rfl]
  rw [scopeAround]
  cases hfound : store.idOf? outerName with
  | some id =>
      have hsame : interned.1 = id := by
        rw [hnamings.found hfound, Option.some.injEq] at hfind
        exact hfind.symm
      rw [hsame, scopeAround]
      exact Scope.ofClass_of_grown h
        (fun _ _ hdecl => Store.class?_internClass (Store.class?_internClass hdecl name) outerName)
        hnamings.mentions.grows.size_le hnamings.mentions.params_eq.1 (hindexed _ _ hfound)
  | none =>
      have hnew : ¬ store.Knows interned.1 := fun hknown => by
        rw [hintroduces.old _ hknown, hfound] at hfind
        cases hfind
      obtain ⟨decl, hdecl, -⟩ := Store.nameOf?_eq_some.mp ((hintroduces.new _ hnew _).mp hfind)
      have hplaceholder := hintroduces.placeholder _ decl hnew hdecl
      refine Scope.ofClass_of_blank hdecl (by rw [hplaceholder.blank]) ?_
      cases houter : decl.enclosing with
      | none => rfl
      | some outer =>
          obtain ⟨_, habsurd, -⟩ := hplaceholder.around outer houter
          cases habsurd

end Loader

/-! ## Parameters on top of a scope -/

namespace Scope

/-- Lets some names stand for variables, one after the other. -/
def insertAll (scope : Scope) : List (String × TypeVarId) → Scope
  | [] => scope
  | (name, var) :: rest => (scope.insert name var).insertAll rest

/-- In the scope the names of the parameters stand for their variables, and all others for what they
stand for in the outer scope. -/
structure Overlays (scope outer : Scope) (params : List ParamSig) (vars : List TypeVarId) :
    Prop where
  own : ∀ param var, (param, var) ∈ params.zip vars → scope.get? param.name = some var
  others : ∀ name, name ∉ params.map ParamSig.name → scope.get? name = outer.get? name

lemma get?_insert (scope : Scope) (name other : String) (var : TypeVarId) :
    (scope.insert name var).get? other = if other = name then some var else scope.get? other :=
  Index.get?_insert _ _ _ _

/-- A name stands for one of the variables that are listed with it, and for what it stood for before
if there is none. -/
lemma get?_insertAll (name : String) : ∀ (entries : List (String × TypeVarId)) (scope : Scope),
    (∃ var, (name, var) ∈ entries ∧ (scope.insertAll entries).get? name = some var) ∨
      name ∉ entries.map Prod.fst ∧ (scope.insertAll entries).get? name = scope.get? name
  | [], _ => Or.inr ⟨by simp, rfl⟩
  | (other, var) :: rest, scope => by
    rw [insertAll]
    rcases get?_insertAll name rest (scope.insert other var) with ⟨found, hmem, hfound⟩ | ⟨hnone, hsame⟩
    · exact Or.inl ⟨found, List.mem_cons_of_mem _ hmem, hfound⟩
    · rw [hsame, get?_insert]
      split
      · rename_i hname
        exact Or.inl ⟨var, by simp [hname], rfl⟩
      · rename_i hname
        exact Or.inr ⟨by simpa [hname] using hnone, rfl⟩

end Scope

namespace Store

variable {store : Store} {declarer : Declarer} {params : List ParamSig} {vars : List TypeVarId}

lemma AreParams.length_eq (h : store.AreParams declarer params vars) :
    vars.length = params.length := by
  simpa [paramKeys] using congrArg List.length h

/-- Parameters with distinct names have distinct variables. -/
lemma AreParams.nodup (h : store.AreParams declarer params vars)
    (hdistinct : (params.map ParamSig.name).Nodup) : vars.Nodup := by
  have hkeys : paramKeys declarer params = (params.map ParamSig.name).map (·, declarer) := by
    rw [paramKeys, List.map_map]
    rfl
  have hnodup : (vars.map store.paramKey?).Nodup := by
    rw [h, hkeys]
    exact (hdistinct.map (Prod.mk_left_injective declarer)).map (Option.some_injective _)
  exact hnodup.of_map

lemma AreParams.key_of_mem_zip : ∀ {params : List ParamSig} {vars : List TypeVarId},
    store.AreParams declarer params vars → ∀ param var, (param, var) ∈ params.zip vars →
      store.paramKey? var = some (param.name, declarer)
  | [], _, _ => by simp
  | _ :: _, [], _ => by simp
  | param :: params, var :: vars, h => by
    obtain ⟨hhead, htail⟩ := List.cons_eq_cons.mp h
    rintro other var' hmem
    rcases List.mem_cons.mp hmem with heq | hmem
    · obtain ⟨rfl, rfl⟩ := Prod.mk.inj heq
      exact hhead
    · exact key_of_mem_zip htail other var' hmem

/-- A parameter that is listed twice has one variable, so it does not matter which entry is on
top. -/
lemma AreParams.overlays (h : store.AreParams declarer params vars) (hstore : store.Consistent)
    (outer : Scope) :
    (outer.insertAll ((params.map ParamSig.name).zip vars)).Overlays outer params vars := by
  have hzip : (params.map ParamSig.name).zip vars =
      (params.zip vars).map (Prod.map ParamSig.name id) := by
    rw [← List.zip_map, List.map_id]
  refine ⟨fun param var hmem => ?_, fun name hname => ?_⟩
  · have hentry : (param.name, var) ∈ (params.map ParamSig.name).zip vars := by
      rw [hzip]
      exact List.mem_map.mpr ⟨(param, var), hmem, rfl⟩
    rcases Scope.get?_insertAll param.name ((params.map ParamSig.name).zip vars) outer with
      ⟨found, hfound, hget⟩ | ⟨hnone, -⟩
    · rw [hzip, List.mem_map] at hfound
      obtain ⟨⟨other, var'⟩, hother, heq⟩ := hfound
      obtain ⟨hname, rfl⟩ := Prod.mk.inj heq
      have hkey := h.key_of_mem_zip other var' hother
      rw [hname, ← hstore.params_indexed] at hkey
      have hkey' := (hstore.params_indexed _ _).mpr (h.key_of_mem_zip param var hmem)
      rw [hkey, Option.some.injEq] at hkey'
      rw [hget]
      exact congrArg some hkey'
    · exact absurd (List.mem_map.mpr ⟨_, hentry, rfl⟩) hnone
  · rcases Scope.get?_insertAll name ((params.map ParamSig.name).zip vars) outer with
      ⟨found, hfound, -⟩ | ⟨-, hget⟩
    · exact absurd (List.of_mem_zip hfound).1 hname
    · exact hget

end Store

namespace Loader

/-- **Interning parameters puts them on top of the scope.**  It cannot fail, and classes are left
alone. -/
lemma internParams_run (declarer : Declarer) : ∀ (params : List ParamSig) (scope : Scope)
    (store : Store), ∃ vars after,
      runOn (internParams declarer params scope) store =
        (.ok (vars, scope.insertAll ((params.map ParamSig.name).zip vars)), after) ∧
      after.classes = store.classes ∧ after.classIndex = store.classIndex ∧
      after.wellKnown = store.wellKnown
  | [], scope, store => ⟨[], store, rfl, rfl, rfl, rfl⟩
  | param :: params, scope, store => by
    have hintern : runOn (Loading.internParam param.name declarer) store =
        (.ok (store.internParam param.name declarer).1,
          (store.internParam param.name declarer).2) := rfl
    obtain ⟨vars, after, hrun, hclasses, hindex, hknown⟩ := internParams_run declarer params
      (scope.insert param.name (store.internParam param.name declarer).1)
      (store.internParam param.name declarer).2
    refine ⟨(store.internParam param.name declarer).1 :: vars, after, ?_, ?_⟩
    · rw [internParams, runOn_bind, hintern]
      dsimp only
      rw [runOn_bind, hrun]
      rfl
    · rw [hclasses, hindex, hknown]
      unfold Store.internParam
      split <;> exact ⟨rfl, rfl, rfl⟩

end Loader

end JavaGenerics
