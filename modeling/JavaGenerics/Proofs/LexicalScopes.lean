import JavaGenerics.Proofs.EnclosingScopes

/-!
# Names and the classes around them

A scope is put together from the outside in, each class writing over what the ones around it have
left.  A reader of Java goes the other way: a name means what the innermost class that declares it
says.  The two agree, whatever the enclosing links are: they may run in a circle or lead to a class
that nobody knows.

* `Store.around?` — the class so and so many links outside of a class.
* `Store.EnclosingChain` — the classes around a class, cut off where the next one is unknown or
  comes up again.  There is only one such chain (`EnclosingChain.unique`), and **the walk finds it**
  (`EnclosingChain.of_walk`) unless it runs out of links, which it does not if it may follow more of
  them than the store has classes (`enclosingChainFrom_eq_some`).
* `Store.declared?` — the parameter that a name means in a class alone.
* `Scope.get?_ofClass` — **inside a class, a name means what it means in the first class of the
  chain that declares it.**
-/

namespace JavaGenerics

namespace Store

/-! ## The classes around a class -/

/-- The class directly around another one. -/
def outer? (store : Store) (id : ClassId) : Option ClassId :=
  (store.class? id).bind ClassDecl.enclosing

/-- The class that lies a number of links outside of another one. -/
def around? (store : Store) : ClassId → Nat → Option ClassId
  | id, 0 => some id
  | id, n + 1 => (store.outer? id).bind fun outer => store.around? outer n

/-- The classes from `id` outward, up to where the next one is unknown or has come up before, be it
in the chain itself or among the ones that were `passed` on the way to it. -/
structure EnclosingChain (store : Store) (passed : List ClassId) (id : ClassId)
    (chain : List ClassId) : Prop where
  /-- Every class of the chain is known, and lies as many links outside as its place says. -/
  placed : ∀ n other, chain[n]? = some other → store.around? id n = some other ∧ store.Knows other
  distinct : (chain ++ passed).Nodup
  /-- The chain is not cut off early. -/
  cut : ∀ next, store.around? id chain.length = some next → store.Knows next →
    next ∈ chain ++ passed

variable {store : Store}

/-- No chain is longer than another one. -/
lemma EnclosingChain.length_le {id : ClassId} {chain other : List ClassId}
    (h : store.EnclosingChain [] id chain) (hother : store.EnclosingChain [] id other) :
    other.length ≤ chain.length := by
  by_contra hlonger
  push Not at hlonger
  have hnext : other[chain.length]? = some other[chain.length] := List.getElem?_eq_getElem hlonger
  obtain ⟨haround, hknown⟩ := hother.placed _ _ hnext
  -- the class at which the shorter chain is cut off stands in both, at two places of the longer one
  have hmem : other[chain.length] ∈ chain := by simpa using h.cut _ haround hknown
  obtain ⟨n, hn, heq⟩ := List.mem_iff_getElem.mp hmem
  have hsame : some other[n] = some other[chain.length] := by
    rw [← (hother.placed n _ (List.getElem?_eq_getElem (hn.trans hlonger))).1,
      (h.placed n _ (List.getElem?_eq_getElem hn)).1, heq]
  have hdistinct : other.Nodup := by simpa using hother.distinct
  have hplace := (hdistinct.getElem_inj_iff).mp (Option.some.inj hsame)
  exact absurd hplace hn.ne

/-- **There is at most one chain of enclosing classes.** -/
lemma EnclosingChain.unique {id : ClassId} {chain other : List ClassId}
    (h : store.EnclosingChain [] id chain) (hother : store.EnclosingChain [] id other) :
    other = chain := by
  refine List.ext_getElem (le_antisymm (h.length_le hother) (hother.length_le h)) ?_
  intro n hn hn'
  have haround := (hother.placed n _ (List.getElem?_eq_getElem hn)).1
  rw [(h.placed n _ (List.getElem?_eq_getElem hn')).1] at haround
  exact (Option.some.inj haround).symm

/-- Nothing is listed for a class that is unknown or has been passed. -/
lemma enclosingChain_nil {passed : List ClassId} {id : ClassId} (hpassed : passed.Nodup)
    (hcut : store.Knows id → id ∈ passed) : store.EnclosingChain passed id [] where
  placed n other h := by simp at h
  distinct := by simpa using hpassed
  cut next hnext hknown := by
    obtain rfl : id = next := by simpa [around?] using hnext
    simpa using hcut hknown

/-- A class in front of the chain of the one around it. -/
lemma EnclosingChain.cons {passed chain : List ClassId} {id outer : ClassId}
    (h : store.EnclosingChain (id :: passed) outer chain) (hid : store.Knows id)
    (houter : store.outer? id = some outer) : store.EnclosingChain passed id (id :: chain) where
  placed n other hother := by
    cases n with
    | zero =>
        obtain rfl : id = other := by simpa using hother
        exact ⟨rfl, hid⟩
    | succ n =>
        rw [around?, houter, Option.bind_some]
        exact h.placed n other (by simpa using hother)
  distinct := (List.perm_middle.nodup_iff).mp h.distinct
  cut next hnext hknown := by
    rw [List.length_cons, around?, houter, Option.bind_some] at hnext
    simpa [or_left_comm] using h.cut next hnext hknown

/-- The chain of a class that lies in no other one. -/
lemma enclosingChain_singleton {passed : List ClassId} {id : ClassId} (hid : store.Knows id)
    (hpassed : (id :: passed).Nodup) (houter : store.outer? id = none) :
    store.EnclosingChain passed id [id] where
  placed n other hother := by
    cases n with
    | zero =>
        obtain rfl : id = other := by simpa using hother
        exact ⟨rfl, hid⟩
    | succ n => simp at hother
  distinct := by simpa using hpassed
  cut next hnext _ := by simp [around?, houter] at hnext

/-- **What the walk along the enclosing links finds is the chain**, unless it runs out of links. -/
lemma EnclosingChain.of_walk : ∀ {links : Nat} {passed : List ClassId} {id : ClassId}
    {chain : List ClassId}, passed.Nodup →
    store.enclosingChainFrom links passed id = some chain → store.EnclosingChain passed id chain
  | 0, _, _, _, _, h => by simp [enclosingChainFrom] at h
  | links + 1, passed, id, chain, hpassed, h => by
    rw [enclosingChainFrom] at h
    cases hid : store.class? id with
    | none =>
        obtain rfl : [] = chain := by simpa [hid] using h
        refine enclosingChain_nil hpassed ?_
        rintro ⟨decl, hdecl⟩
        simp [hid] at hdecl
    | some decl =>
        simp only [hid] at h
        split at h
        · rename_i hmem
          obtain rfl : [] = chain := Option.some.inj h
          exact enclosingChain_nil hpassed fun _ => by simpa using hmem
        · rename_i hnew
          have hnodup : (id :: passed).Nodup := List.nodup_cons.mpr ⟨by simpa using hnew, hpassed⟩
          cases houter : decl.enclosing with
          | none =>
              obtain rfl : [id] = chain := by simpa [houter] using h
              exact enclosingChain_singleton ⟨decl, hid⟩ hnodup (by simp [outer?, hid, houter])
          | some outer =>
              simp only [houter, Option.map_eq_some_iff] at h
              obtain ⟨rest, hrest, rfl⟩ := h
              exact (EnclosingChain.of_walk hnodup hrest).cons ⟨decl, hid⟩
                (by simp [outer?, hid, houter])

/-! ## What a name means in one class -/

/-- Whether a variable is known under the name. -/
def isNamed (store : Store) (name : String) (var : TypeVarId) : Bool :=
  (store.param? var).any fun param => param.name == name

/-- The last one, among the known parameters of a class, that has the name. -/
def declared? (store : Store) (name : String) (id : ClassId) : Option TypeVarId :=
  (store.class? id).bind fun decl => decl.params.reverse.find? (store.isNamed name)

end Store

namespace Scope

variable {store : Store}

/-- Of several variables with the name the last one is found, before what was in sight already. -/
lemma get?_insertKnown (name : String) : ∀ (vars : List TypeVarId) (scope : Scope),
    (insertKnown store scope vars).get? name =
      (vars.reverse.find? (store.isNamed name)).or (scope.get? name)
  | [], _ => rfl
  | var :: rest, scope => by
    rw [insertKnown, List.reverse_cons, List.find?_append, Option.or_assoc]
    cases hvar : store.param? var with
    | none => simp [get?_insertKnown name rest, Store.isNamed, hvar]
    | some param =>
        dsimp only
        rw [get?_insertKnown name rest, get?_insert]
        by_cases hname : name = param.name
        · simp [Store.isNamed, hvar, hname]
        · simp [Store.isNamed, hvar, hname, Ne.symm hname]

lemma get?_insertParams (name : String) (scope : Scope) (id : ClassId) :
    (insertParams store scope id).get? name =
      (store.declared? name id).or (scope.get? name) := by
  unfold insertParams Store.declared?
  cases store.class? id with
  | none => rfl
  | some decl => exact get?_insertKnown name decl.params scope

/-- The classes that are brought into sight last are asked first. -/
lemma get?_foldl_insertParams (name : String) (scope : Scope) (chain : List ClassId) :
    (chain.reverse.foldl (insertParams store) scope).get? name =
      (chain.findSome? (store.declared? name)).or (scope.get? name) := by
  rw [List.foldl_reverse]
  induction chain with
  | nil => rfl
  | cons id rest ih =>
      rw [List.foldr_cons, get?_insertParams, ih, List.findSome?_cons]
      cases store.declared? name id <;> rfl

/-- **Names are looked up from the inside out.**  Inside a class, a name means the last parameter of
that name in the first class of its chain of enclosing classes that declares one, and nothing if
none does.  There is exactly one chain in every store, and every walk that may follow more links
than the store has classes finds it and does not run out of links. -/
theorem get?_ofClass (store : Store) (id : ClassId) :
    ∃ chain, (∀ other, store.EnclosingChain [] id other ↔ other = chain) ∧
      (∀ links, store.size < links → store.enclosingChainFrom links [] id = some chain) ∧
      ∀ name, (ofClass store id).get? name = chain.findSome? (store.declared? name) := by
  have hwalk : ∀ links, store.size < links →
      store.enclosingChainFrom links [] id = some (store.enclosingChain id) := fun links hlinks =>
    Store.enclosingChainFrom_eq_some hlinks id
  have hchain : store.EnclosingChain [] id (store.enclosingChain id) :=
    .of_walk List.nodup_nil (hwalk (store.size + 1) (Nat.lt_succ_self _))
  refine ⟨store.enclosingChain id, fun other => ⟨hchain.unique, ?_⟩, hwalk, fun name => ?_⟩
  · rintro rfl
    exact hchain
  · rw [ofClass, get?_foldl_insertParams]
    exact Option.or_none

end Scope

end JavaGenerics
