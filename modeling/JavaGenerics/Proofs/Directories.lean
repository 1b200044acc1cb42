import JavaGenerics.Proofs.ConsistencyCheck

/-!
# Names and what they lead to

A store keeps a name in two places: the declaration bears it, and an index leads from it back to the
declaration's id.  A change of name has to change both, and two declarations may come to bear the
same name.  What can be relied upon then?  Classes and type variables raise the same question, so it
is settled once.

* `Directory` — keys by id, and an index of ids by key.  `Directory.Truthful`: the index never
  lies.  `Directory.Finds`: whatever bears the key is found by it.
* `Directory.file` — the one way a directory changes: an id gets a key, and **the index forgets the
  old key, whoever was found by it.**
* `Directory.Truthful.file` — the index tells the truth after any such change.
* `Directory.finds_update_iff` — **a key goes on finding all its bearers exactly if it is not given
  to an id while another one bears it.**
* `Directory.update_rekeying` — where the index is a table, a change of key is an erased entry and
  an inserted one.
* `Store.classDirectory`, `Store.paramDirectory` — the two directories of a store, and one lemma for
  each operation that says what it files there.
-/

namespace JavaGenerics

/-- Keys by id, and an index of ids by key. -/
@[ext]
structure Directory (ι κ : Type) where
  keyOf? : ι → Option κ
  find? : κ → Option ι

namespace Directory

variable {ι κ : Type} {d : Directory ι κ}

/-- What is found by a key bears it. -/
def Truthful (d : Directory ι κ) : Prop :=
  ∀ key id, d.find? key = some id → d.keyOf? id = some key

/-- What bears the key is found by it. -/
def Finds (d : Directory ι κ) (key : κ) : Prop :=
  ∀ id, d.keyOf? id = some key → d.find? key = some id

/-- Different keys do not lead to the same id. -/
lemma Truthful.key_unique (h : d.Truthful) {key key' : κ} {id : ι} (hkey : d.find? key = some id)
    (hkey' : d.find? key' = some id) : key = key' := by
  have hborne := h key id hkey
  rw [h key' id hkey', Option.some.injEq] at hborne
  exact hborne.symm

/-! ## What there is to file -/

/-- Where a key is to be found in any case: nothing, or the next id under the key. -/
def interning (d : Directory ι κ) (next : ι) (key : κ) : Option (ι × κ) :=
  if (d.find? key).isSome then none else some (next, key)

/-- Where an id is to bear a key: nothing if it does so already, or if the id is unknown. -/
def rekeying [DecidableEq κ] (d : Directory ι κ) (id : ι) (key : κ) : Option (ι × κ) :=
  (d.keyOf? id).bind fun old => if old = key then none else some (id, key)

/-- The key is given to an id while another one bears it. -/
def Crowds (d : Directory ι κ) (key : κ) (change : Option (ι × κ)) : Prop :=
  ∃ id other, change = some (id, key) ∧ other ≠ id ∧ d.keyOf? other = some key

/-- A key that finds all its bearers is not interned while there is one. -/
lemma Finds.not_crowds_interning {key : κ} (h : d.Finds key) (next : ι) (given : κ) :
    ¬ d.Crowds key (d.interning next given) := by
  rintro ⟨id, other, hchange, -, hborne⟩
  rw [interning] at hchange
  split at hchange
  · exact absurd hchange (by simp)
  · rename_i hnone
    obtain ⟨-, rfl⟩ := Prod.mk.inj (Option.some.inj hchange)
    exact hnone (by rw [h other hborne, Option.isSome_some])

/-- To give an id another key crowds that key exactly if it is borne already. -/
lemma crowds_rekeying_iff [DecidableEq κ] (d : Directory ι κ) (id : ι) (given key : κ) :
    d.Crowds key (d.rekeying id given) ↔
      given = key ∧ (∃ old, d.keyOf? id = some old ∧ old ≠ key) ∧
        ∃ other, d.keyOf? other = some key := by
  cases hid : d.keyOf? id with
  | none => simp [Crowds, rekeying, hid]
  | some old =>
      by_cases hold : old = given
      · refine iff_of_false ?_ ?_
        · simp [Crowds, rekeying, hid, hold]
        · rintro ⟨rfl, ⟨_, hborne, hne⟩, -⟩
          exact hne ((Option.some.inj hborne).symm.trans hold)
      · simp only [Crowds, rekeying, hid, Option.bind_some, if_neg hold, Option.some.injEq,
          Prod.mk.injEq]
        constructor
        · rintro ⟨_, other, ⟨rfl, rfl⟩, -, hborne⟩
          exact ⟨rfl, ⟨old, rfl, hold⟩, other, hborne⟩
        · rintro ⟨rfl, -, other, hborne⟩
          refine ⟨id, other, ⟨rfl, rfl⟩, ?_, hborne⟩
          rintro rfl
          exact hold (Option.some.inj (hid.symm.trans hborne))

/-! ## Filing -/

variable [DecidableEq ι] [DecidableEq κ]

/-- Gives a key to an id.  The key that the id bore before leads nowhere then. -/
def file (d : Directory ι κ) (id : ι) (key : κ) : Directory ι κ where
  keyOf? other := if other = id then some key else d.keyOf? other
  find? other :=
    if other = key then some id
    else if d.keyOf? id = some other then none
    else d.find? other

/-- The directory after a change, if there is one. -/
def update (d : Directory ι κ) : Option (ι × κ) → Directory ι κ
  | some (id, key) => d.file id key
  | none => d

/-- **The index tells the truth after any change.** -/
lemma Truthful.file (h : d.Truthful) (id : ι) (key : κ) : (d.file id key).Truthful := by
  intro other found hfound
  simp only [Directory.file] at hfound ⊢
  split at hfound
  · rename_i hother
    rw [if_pos (Option.some.inj hfound).symm, hother]
  · split at hfound
    · exact absurd hfound (by simp)
    · rename_i hold
      -- What the index keeps was not found by the old key, so its own key is not the one replaced.
      have hborne := h other found hfound
      have hne : found ≠ id := by
        rintro rfl
        exact hold hborne
      rw [if_neg hne, hborne]

lemma Truthful.update (h : d.Truthful) (change : Option (ι × κ)) : (d.update change).Truthful := by
  cases change with
  | none => exact h
  | some entry => exact h.file entry.1 entry.2

/-- After a change, its own key finds all its bearers exactly if there is one only. -/
lemma finds_file_self_iff (d : Directory ι κ) (id : ι) (key : κ) :
    (d.file id key).Finds key ↔ ∀ other, other ≠ id → d.keyOf? other ≠ some key := by
  simp only [Finds, file, if_true, Option.some.injEq]
  constructor
  · intro h other hne hborne
    exact hne (h other (by rw [if_neg hne, hborne])).symm
  · intro h other hborne
    by_contra hne
    rw [if_neg fun heq => hne heq.symm] at hborne
    exact h other (fun heq => hne heq.symm) hborne

/-- A change does not keep other keys from finding all their bearers. -/
lemma Finds.file {other : κ} (h : d.Finds other) {id : ι} {key : κ} (hne : other ≠ key) :
    (d.file id key).Finds other := by
  intro found hborne
  simp only [Directory.file] at hborne ⊢
  split at hborne
  · exact absurd (Option.some.inj hborne).symm hne
  · rename_i hfound
    have hkept := h found hborne
    rw [if_neg hne, hkept, if_neg]
    -- The old key of the id finds the id and nothing else.
    intro hold
    exact hfound (Option.some.inj ((h id hold).symm.trans hkept)).symm

/-- **A key that finds all its bearers goes on doing so exactly if it is not given to an id while
another one bears it.** -/
lemma finds_update_iff {key : κ} (h : d.Finds key) (change : Option (ι × κ)) :
    (d.update change).Finds key ↔ ¬ d.Crowds key change := by
  cases change with
  | none => simp [update, h, Crowds]
  | some entry =>
      obtain ⟨id, given⟩ := entry
      by_cases hkey : given = key
      · subst hkey
        rw [update, finds_file_self_iff]
        simp [Crowds]
      · refine iff_of_true (h.file fun heq => hkey heq.symm) ?_
        rintro ⟨_, _, hchange, -⟩
        exact hkey (Prod.mk.inj (Option.some.inj hchange)).2

/-! ### Directories with a table for an index -/

variable {index : Index κ ι}

lemma update_interning_of_none (hindex : d.find? = index.get?) {next : ι} {key : κ}
    (hnext : d.keyOf? next = none) (hkey : index.get? key = none) :
    d.update (d.interning next key) =
      { keyOf? := fun other => if other = next then some key else d.keyOf? other
        find? := (index.insert key next).get? } := by
  have hfiled : d.interning next key = some (next, key) := by simp [interning, hindex, hkey]
  rw [hfiled]
  ext1
  · rfl
  · funext other
    simp [update, file, hnext, hindex, Index.get?_insert]

lemma update_interning_of_some (hindex : d.find? = index.get?) {next id : ι} {key : κ}
    (hkey : index.get? key = some id) : d.update (d.interning next key) = d := by
  simp [interning, update, hindex, hkey]

lemma update_rekeying (hindex : d.find? = index.get?) {id : ι} {old : κ}
    (hid : d.keyOf? id = some old) (key : κ) :
    d.update (d.rekeying id key) =
      { keyOf? := fun other => if other = id then some key else d.keyOf? other
        find? := (if old = key then index else (index.erase old).insert key id).get? } := by
  by_cases hold : old = key
  · have hfiled : d.rekeying id key = none := by simp [rekeying, hid, hold]
    rw [hfiled, if_pos hold]
    ext1
    · funext other
      dsimp only [update]
      split
      · rename_i hother
        rw [hother, hid, hold]
      · rfl
    · exact hindex
  · have hfiled : d.rekeying id key = some (id, key) := by simp [rekeying, hid, hold]
    rw [hfiled, if_neg hold]
    ext1
    · rfl
    · funext other
      simp only [update, file, hid, hindex, Index.get?_insert, Index.get?_erase,
        Option.some.injEq, eq_comm]

end Directory

/-! ## The directories of a store -/

namespace Store

variable {store after : Store}

/-- The names of classes. -/
def classDirectory (store : Store) : Directory ClassId String :=
  ⟨store.nameOf?, store.idOf?⟩

/-- The names and declaring elements of type variables. -/
def paramDirectory (store : Store) : Directory TypeVarId (String × Declarer) :=
  ⟨store.paramKey?, store.paramIndex.get?⟩

lemma Consistent.classDirectory (h : store.Consistent) :
    store.classDirectory.Truthful ∧ ∀ name, store.classDirectory.Finds name :=
  ⟨fun name id => (h.indexed name id).mp, fun name id => (h.indexed name id).mpr⟩

lemma Consistent.paramDirectory (h : store.Consistent) :
    store.paramDirectory.Truthful ∧ ∀ key, store.paramDirectory.Finds key :=
  ⟨fun key var => (h.params_indexed key var).mp, fun key var => (h.params_indexed key var).mpr⟩

/-- A class that is looked up by name is known, under this name. -/
lemma class_of_truthful (h : store.classDirectory.Truthful) {name : String} {id : ClassId}
    (hid : store.idOf? name = some id) :
    id.index < store.size ∧ ∃ decl, store.class? id = some decl ∧ decl.name = name := by
  obtain ⟨decl, hdecl, hname⟩ := nameOf?_eq_some.mp (h name id hid)
  exact ⟨(Array.getElem?_eq_some_iff.mp hdecl).choose, decl, hdecl, hname⟩

/-- A type variable that is looked up is known, under this name and declaring element. -/
lemma param_of_truthful (h : store.paramDirectory.Truthful) {name : String} {declarer : Declarer}
    {var : TypeVarId} (hvar : store.paramIndex.get? (name, declarer) = some var) :
    ∃ param, store.param? var = some param ∧ param.name = name ∧ param.declarer = declarer := by
  obtain ⟨param, hparam, hkey⟩ := Option.map_eq_some_iff.mp (h (name, declarer) var hvar)
  obtain ⟨hname, hdeclarer⟩ := Prod.mk.inj hkey
  exact ⟨param, hparam, hname, hdeclarer⟩

/-! ### What each operation files -/

lemma classDirectory_internClass (store : Store) (name : String) :
    (store.internClass name).2.classDirectory =
      store.classDirectory.update (store.classDirectory.interning ⟨store.classes.size⟩ name) := by
  unfold internClass
  cases hname : store.idOf? name with
  | some id => exact (Directory.update_interning_of_some rfl hname).symm
  | none =>
      have hnext : store.nameOf? ⟨store.classes.size⟩ = none := by simp [nameOf?, class?]
      rw [Directory.update_interning_of_none rfl hnext hname]
      ext1
      · exact funext (store.nameOf?_pushClass name _)
      · rfl

/-- Declaring a class by name files what interning the name does. -/
lemma classDirectory_declareClass (h : store.classDirectory.Truthful) (decl : ClassDecl) :
    (store.declareClass decl).2.classDirectory =
      (store.internClass decl.name).2.classDirectory := by
  have hname := nameOf?_internClass h decl.name
  ext1
  · funext other
    refine (nameOf?_setClass hname decl _ other).trans ?_
    split
    · rename_i hother
      exact hother ▸ hname.symm
    · rfl
  · rfl

lemma classDirectory_redeclareClass {id : ClassId} {decl : ClassDecl}
    (hdone : store.redeclareClass id decl = .ok after) :
    after.classDirectory =
      store.classDirectory.update (store.classDirectory.rekeying id decl.name) := by
  obtain ⟨old, hid, hafter⟩ := exists_of_redeclareClass hdone
  have hborne : store.nameOf? id = some old.name := by rw [nameOf?, hid, Option.map_some]
  rw [Directory.update_rekeying rfl hborne, hafter]
  ext1
  · exact funext (nameOf?_setClass hborne decl _)
  · rfl

lemma paramDirectory_internParam (store : Store) (name : String) (declarer : Declarer) :
    (store.internParam name declarer).2.paramDirectory = store.paramDirectory.update
      (store.paramDirectory.interning ⟨store.params.size⟩ (name, declarer)) := by
  unfold internParam
  cases hkey : store.paramIndex.get? (name, declarer) with
  | some var => exact (Directory.update_interning_of_some rfl hkey).symm
  | none =>
      have hnext : store.paramKey? ⟨store.params.size⟩ = none := by simp [paramKey?, param?]
      rw [Directory.update_interning_of_none rfl hnext hkey]
      ext1
      · exact funext (store.paramKey?_pushParam name declarer _)
      · rfl

/-- Setting bounds files nothing. -/
lemma paramDirectory_setBounds {var : TypeVarId} {bounds : List Ty}
    (hdone : store.setBounds var bounds = .ok after) :
    after.paramDirectory = store.paramDirectory := by
  obtain ⟨_, -, hafter, -⟩ := param?_of_setBounds hdone
  ext1
  · exact funext (paramKey?_of_setBounds hdone)
  · rw [hafter]
    rfl

/-- Declaring a variable files what interning it does. -/
lemma paramDirectory_declareParam (store : Store) (name : String) (declarer : Declarer)
    (bounds : List Ty) :
    (store.declareParam name declarer bounds).2.paramDirectory =
      (store.internParam name declarer).2.paramDirectory := by
  unfold declareParam
  rcases store.internParam name declarer with ⟨var, interned⟩
  dsimp only
  split
  · rename_i param hparam
    have hset : interned.setBounds var bounds = .ok { interned with
        params := interned.params.setIfInBounds var.index { param with bounds := bounds } } := by
      simp [setBounds, knownParam, hparam]
    exact paramDirectory_setBounds hset
  · rfl

lemma paramDirectory_redeclareParam {var : TypeVarId} {param : TypeParam}
    (hdone : store.redeclareParam var param = .ok after) :
    after.paramDirectory = store.paramDirectory.update
      (store.paramDirectory.rekeying var (param.name, param.declarer)) := by
  obtain ⟨old, hvar, hafter⟩ := exists_of_redeclareParam hdone
  have hborne : store.paramKey? var = some (old.name, old.declarer) := by
    rw [paramKey?, hvar, Option.map_some]
  rw [Directory.update_rekeying rfl hborne, hafter]
  ext1
  · funext other
    dsimp only [paramDirectory]
    rw [paramKey?, param?_setParam ⟨old, hvar⟩, apply_ite (Option.map _)]
    rfl
  · simp only [paramDirectory, Prod.mk.injEq]

end Store

end JavaGenerics
