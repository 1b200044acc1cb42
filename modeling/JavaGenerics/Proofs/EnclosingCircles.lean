import JavaGenerics.Proofs.LexicalScopes
import JavaGenerics.Proofs.Renaming

/-!
# Enclosing links that run in a circle

A nested class is written with the name of the class around it in front.  A class that is said to
lie in itself counts as not nested, so this circle does no harm; it is also the only one that is
looked out for.  Enclosing links can be set to any class at any time, and where two classes lie in
each other, **neither of them has a name, and whoever writes one of them, for an answer or for the
message of an error, never gets to its end.**  The walk that brings names into sight keeps the
classes it has passed and ends on every store (`enclosingChainFrom_eq_some`).

* `Store.LeadsOut` — the links that are followed for the name of a class come to an end.
* `Store.RunsInCircle` — they come back to where they have been.  `leadsOut_iff` says that they do
  either the one or the other.
* `Store.spelled` — the classes whose names are written out in a type.
* `Store.Writable` — all classes, types and type variables of a store have names, so that no message
  shows a stand-in for one.
* `Store.Change` — edits, and changes of a class in place.  One change sets the link of one class at
  most (`exists_relinked`), so **it takes names away exactly if it closes a circle**
  (`writable_changed_iff`).
* `Store.names_written_iff` — what has a name after a run of changes, and which runs keep all names.
-/

namespace JavaGenerics

open Relation

namespace Store

/-! ## The name of a class -/

/-- The name of the one class is written with that of the other one in front. -/
def WrittenInside (store : Store) (id outer : ClassId) : Prop :=
  store.outer? id = some outer ∧ outer ≠ id

/-- The links that are followed for the name of the class end at some class. -/
def LeadsOut (store : Store) (id : ClassId) : Prop :=
  ∃ last, ReflTransGen store.WrittenInside id last ∧ ∀ outer, ¬ store.WrittenInside last outer

/-- The links that are followed for the name of the class get into a circle. -/
def RunsInCircle (store : Store) (id : ClassId) : Prop :=
  ∃ other, ReflTransGen store.WrittenInside id other ∧ TransGen store.WrittenInside other other

variable {store after : Store} {id outer linked : ClassId}

lemma WrittenInside.knows (h : store.WrittenInside id outer) : store.Knows id := by
  obtain ⟨decl, hdecl, -⟩ := Option.bind_eq_some_iff.mp h.1
  exact ⟨decl, hdecl⟩

lemma WrittenInside.enclosedBy (h : store.WrittenInside id outer) : store.EnclosedBy id outer :=
  Option.bind_eq_some_iff.mp h.1

lemma WrittenInside.unique {other : ClassId} (h : store.WrittenInside id outer)
    (hother : store.WrittenInside id other) : other = outer :=
  Option.some.inj (hother.1.symm.trans h.1)

/-- What the name of a nested class is made of. -/
lemma WrittenInside.qualifiedName?_eq (h : store.WrittenInside id outer) :
    store.qualifiedName? id =
      (store.qualifiedName? outer).map fun front => front ++ "." ++ store.simpleName id := by
  obtain ⟨decl, hdecl, houter⟩ := h.enclosedBy
  rw [qualifiedName?, simpleName, hdecl]
  simp only [houter, if_neg h.2]
  cases store.qualifiedName? outer <;> rfl

/-- A class that is written inside no other one has a name. -/
lemma isSome_qualifiedName?_of_outermost (h : ∀ outer, ¬ store.WrittenInside id outer) :
    (store.qualifiedName? id).isSome = true := by
  rw [qualifiedName?]
  cases hdecl : store.class? id with
  | none => rfl
  | some decl =>
      cases houter : decl.enclosing with
      | none => simp only [houter, Option.isSome_some]
      | some outer =>
          have hself : outer = id := by
            by_contra hne
            exact h outer ⟨by simp [outer?, hdecl, houter], hne⟩
          simp only [houter, if_pos hself, Option.isSome_some]

lemma LeadsOut.head (h : store.LeadsOut outer) (hid : store.WrittenInside id outer) :
    store.LeadsOut id := by
  obtain ⟨last, hpath, hlast⟩ := h
  exact ⟨last, .head hid hpath, hlast⟩

/-- **A class has a name exactly if its links come to an end.** -/
lemma isSome_qualifiedName?_iff :
    (store.qualifiedName? id).isSome = true ↔ store.LeadsOut id := by
  constructor
  · intro hsome
    obtain ⟨name, hname⟩ := Option.isSome_iff_exists.mp hsome
    refine qualifiedName?.partial_correctness store (fun id _ => store.LeadsOut id) ?_ id name hname
    -- one more class in front of those whose names have been written
    intro recurse ih id name hname
    by_cases hin : ∃ outer, store.WrittenInside id outer
    · obtain ⟨outer, hinside⟩ := hin
      obtain ⟨decl, hdecl, houter⟩ := hinside.enclosedBy
      simp only [hdecl, houter, if_neg hinside.2, Option.bind_eq_bind,
        Option.bind_eq_some_iff] at hname
      obtain ⟨front, hfront, -⟩ := hname
      exact (ih outer front hfront).head hinside
    · exact ⟨id, .refl, fun outer hinside => hin ⟨outer, hinside⟩⟩
  · rintro ⟨last, hpath, hlast⟩
    induction hpath using ReflTransGen.head_induction_on with
    | refl => exact isSome_qualifiedName?_of_outermost hlast
    | head hinside _ ih => rwa [hinside.qualifiedName?_eq, Option.isSome_map]

/-! ## Circles -/

/-- A circle that is reached is reached through the class around. -/
lemma RunsInCircle.exists_outer (h : store.RunsInCircle id) :
    ∃ outer, store.WrittenInside id outer ∧ store.RunsInCircle outer := by
  obtain ⟨other, hpath, hcircle⟩ := h
  obtain ⟨outer, hinside, hrest⟩ := TransGen.head'_iff.mp (TransGen.trans_right hpath hcircle)
  exact ⟨outer, hinside, other, hrest, hcircle⟩

lemma LeadsOut.not_runsInCircle (h : store.LeadsOut id) : ¬ store.RunsInCircle id := by
  obtain ⟨last, hpath, hlast⟩ := h
  induction hpath using ReflTransGen.head_induction_on with
  | refl =>
      intro hcircle
      obtain ⟨outer, hinside, -⟩ := hcircle.exists_outer
      exact hlast outer hinside
  | head hinside _ ih =>
      intro hcircle
      obtain ⟨outer, hinside', hrest⟩ := hcircle.exists_outer
      exact ih (hinside.unique hinside' ▸ hrest)

/-- Links that come back to no class on the way come to an end, as the store has only so many
classes.  The induction is on how many of them have not been `passed`. -/
lemma leadsOut_of_passed : ∀ (left : Nat) (passed : List ClassId) (id : ClassId), passed.Nodup →
    (∀ other ∈ passed, store.Knows other ∧ TransGen store.WrittenInside other id) →
    ¬ store.RunsInCircle id → store.size < left + passed.length → store.LeadsOut id
  | 0, passed, id, hnodup, hpassed, _, hleft =>
    absurd (length_le_size hnodup fun other hother => (hpassed other hother).1) (by omega)
  | left + 1, passed, id, hnodup, hpassed, hcircle, hleft => by
    by_cases hin : ∃ outer, store.WrittenInside id outer
    · obtain ⟨outer, hinside⟩ := hin
      have hnew : id ∉ passed := fun hmem => hcircle ⟨id, .refl, (hpassed id hmem).2⟩
      have hbefore : ∀ other ∈ id :: passed,
          store.Knows other ∧ TransGen store.WrittenInside other outer :=
        List.forall_mem_cons.mpr ⟨⟨hinside.knows, .single hinside⟩,
          fun other hother => (hpassed other hother).imp_right (·.tail hinside)⟩
      have hrest : ¬ store.RunsInCircle outer := by
        rintro ⟨other, hpath, hback⟩
        exact hcircle ⟨other, .head hinside hpath, hback⟩
      exact (leadsOut_of_passed left (id :: passed) outer (List.nodup_cons.mpr ⟨hnew, hnodup⟩)
        hbefore hrest (by rw [List.length_cons]; omega)).head hinside
    · exact ⟨id, .refl, fun outer hinside => hin ⟨outer, hinside⟩⟩

/-- **Links either come to an end or run in a circle.** -/
lemma leadsOut_iff : store.LeadsOut id ↔ ¬ store.RunsInCircle id :=
  ⟨LeadsOut.not_runsInCircle, fun h =>
    leadsOut_of_passed (store.size + 1) [] id List.nodup_nil (by simp) h (by simp)⟩

/-- **A class has a name exactly if its links do not run in a circle.** -/
lemma isSome_qualifiedName?_iff_not_runsInCircle :
    (store.qualifiedName? id).isSome = true ↔ ¬ store.RunsInCircle id :=
  isSome_qualifiedName?_iff.trans leadsOut_iff

lemma qualifiedName?_eq_none_iff : store.qualifiedName? id = none ↔ store.RunsInCircle id := by
  rw [← Option.not_isSome_iff_eq_none, isSome_qualifiedName?_iff_not_runsInCircle, not_not]

/-- The smallest circle there is: two classes that lie in each other. -/
lemma RunsInCircle.of_two (h : store.WrittenInside id outer) (hback : store.WrittenInside outer id) :
    store.RunsInCircle id :=
  ⟨id, .refl, .head h (.single hback)⟩

/-! ## Types and type variables -/

mutual

/-- The classes whose names are written out in a type. -/
def spelled (store : Store) : Ty → List ClassId
  | .cls id => [id]
  | .var _ => []
  | .applied raw args owner => spelledInHead store raw owner ++ spelledAll store args
  | .wildcard upper lower =>
    if lower.isEmpty then
      if upper.isEmpty || upper == [store.objectTy] then [] else spelledAll store upper
    else spelledAll store lower
  | .array component => spelled store component

/-- An owner that is an applied class stands in for the class. -/
def spelledInHead (store : Store) (raw : ClassId) : Option Ty → List ClassId
  | some owner => if owner.isApplied then spelled store owner else [raw]
  | none => [raw]

def spelledAll (store : Store) : List Ty → List ClassId
  | [] => []
  | ty :: rest => spelled store ty ++ spelledAll store rest

end

mutual

/-- **A type is written exactly if all classes that are written out in it have names.** -/
theorem isSome_typeName?_iff : ∀ ty, (store.typeName? ty).isSome = true ↔
    ∀ id ∈ store.spelled ty, (store.qualifiedName? id).isSome = true
  | .cls id => by simp [typeName?, spelled]
  | .var v => by simp [typeName?, spelled]
  | .applied raw args owner => by
    rw [spelled, List.forall_mem_append, ← isSome_headName?_iff raw owner,
      ← isSome_typeNames?_iff args, typeName?]
    cases headName? store raw owner <;> cases typeNames? store args <;> simp
    split <;> rfl
  | .wildcard upper [] => by
    rw [spelled, typeName?, typeNames?, if_pos List.isEmpty_nil]
    by_cases hplain : (upper.isEmpty || upper == [store.objectTy]) = true
    · simp [hplain]
    · simp only [if_neg hplain, ← isSome_typeNames?_iff upper]
      cases typeNames? store upper <;> rfl
  | .wildcard upper (bound :: rest) => by
    rw [spelled, if_neg (by simp), ← isSome_typeNames?_iff (bound :: rest), typeName?]
    cases hnames : typeNames? store (bound :: rest) with
    | none => rfl
    | some names =>
        have hsome : names ≠ [] := by
          rintro rfl
          simp [typeNames?, Option.bind_eq_some_iff] at hnames
        cases names with
        | nil => exact absurd rfl hsome
        | cons _ _ => rfl
  | .array component => by
    rw [spelled, ← isSome_typeName?_iff component, typeName?]
    cases store.typeName? component <;> rfl

theorem isSome_headName?_iff (raw : ClassId) : ∀ owner,
    (headName? store raw owner).isSome = true ↔
      ∀ id ∈ spelledInHead store raw owner, (store.qualifiedName? id).isSome = true
  | none => by simp [headName?, spelledInHead]
  | some owner => by
    rw [headName?, spelledInHead]
    split
    · rw [← isSome_typeName?_iff owner]
      cases store.typeName? owner <;> rfl
    · simp

theorem isSome_typeNames?_iff : ∀ types, (typeNames? store types).isSome = true ↔
    ∀ id ∈ spelledAll store types, (store.qualifiedName? id).isSome = true
  | [] => by simp [typeNames?, spelledAll]
  | ty :: rest => by
    rw [spelledAll, List.forall_mem_append, ← isSome_typeName?_iff ty,
      ← isSome_typeNames?_iff rest, typeNames?]
    cases store.typeName? ty <;> cases typeNames? store rest <;> simp

end

/-- A type is written exactly if no links of the classes in it run in a circle. -/
lemma isSome_typeName?_iff_not_runsInCircle {ty : Ty} : (store.typeName? ty).isSome = true ↔
    ∀ id ∈ store.spelled ty, ¬ store.RunsInCircle id := by
  simp only [isSome_typeName?_iff, isSome_qualifiedName?_iff_not_runsInCircle]

/-! ## Stores in which everything has a name -/

/-- All that can be shown has a name, so that messages never show a stand-in for one. -/
structure Writable (store : Store) : Prop where
  classes : ∀ id, store.qualifiedName? id = some (store.className id)
  types : ∀ ty, store.typeName? ty = some (store.typeName ty)
  vars : ∀ var, store.varSignature? var = some (store.varSignature var)

/-- A type variable is written with its declaring element and its bounds. -/
lemma isSome_varSignature? (h : ∀ id, (store.qualifiedName? id).isSome = true) (var : TypeVarId) :
    (store.varSignature? var).isSome = true := by
  have hdeclarer : ∀ declarer, (store.declarerName? declarer).isSome = true := by
    rintro (id | ⟨id, name⟩)
    · exact h id
    · obtain ⟨front, hfront⟩ := Option.isSome_iff_exists.mp (h id)
      simp [declarerName?, hfront]
  have hbounds : ∀ bounds, (typeNames? store bounds).isSome = true := fun bounds =>
    (isSome_typeNames?_iff bounds).mpr fun id _ => h id
  rw [varSignature?]
  cases store.param? var with
  | none => rfl
  | some param =>
      obtain ⟨declarer, hdeclarer⟩ := Option.isSome_iff_exists.mp (hdeclarer param.declarer)
      obtain ⟨bounds, hbounds⟩ := Option.isSome_iff_exists.mp (hbounds param.bounds)
      simp only [hdeclarer, hbounds, Option.bind_eq_bind, Option.bind_some]
      split <;> rfl

/-- **Everything has a name exactly if no enclosing links run in a circle.** -/
lemma writable_iff : store.Writable ↔ ∀ id, store.LeadsOut id := by
  constructor
  · intro h id
    rw [← isSome_qualifiedName?_iff, h.classes id, Option.isSome_some]
  · intro h
    have hclasses : ∀ id, (store.qualifiedName? id).isSome = true := fun id =>
      isSome_qualifiedName?_iff.mpr (h id)
    have hshown : ∀ {name? : Option String}, name?.isSome = true → name? = some (name?.getD "") :=
      fun hsome => (Option.getD_of_ne_none (Option.isSome_iff_ne_none.mp hsome) "").symm
    exact ⟨fun id => hshown (hclasses id),
      fun ty => hshown ((isSome_typeName?_iff ty).mpr fun id _ => hclasses id),
      fun var => hshown (isSome_varSignature? hclasses var)⟩

/-- Names get longer along the enclosing links of a consistent store, so the links end. -/
lemma Consistent.writable (h : store.Consistent) : store.Writable := by
  refine writable_iff.mpr fun id => leadsOut_iff.mpr ?_
  rintro ⟨other, -, hcircle⟩
  exact h.enclosing_acyclic other
    (TransGen.mono (fun _ _ hinside => hinside.enclosedBy) _ _ hcircle)

/-! ## Changes -/

/-- Ways to change a store: edits, and changes of a class in place, which may set its enclosing
class to any other one. -/
inductive Change where
  | edit (edit : Edit)
  | modifyClass (id : ClassId) (change : ClassDecl → ClassDecl)

/-- The store after a change. -/
def changed (store : Store) : Change → Store
  | .edit edit => store.edited edit
  | .modifyClass id change => store.modifyClass id change

/-- The store after some changes. -/
def changedBy (store : Store) (changes : List Change) : Store :=
  changes.foldl changed store

/-- After the change, a class lies in one from which links led to it before. -/
def ClosesCircle (store : Store) (change : Change) : Prop :=
  ∃ id outer, (store.changed change).WrittenInside id outer ∧
    ReflTransGen store.WrittenInside outer id

/-- All enclosing links are the same, but for that of one class. -/
def Relinked (store after : Store) (linked : ClassId) : Prop :=
  ∀ other, other ≠ linked → after.outer? other = store.outer? other

lemma relinked_of_ofParams {edit : Edit} (h : edit.OfParams) (linked : ClassId) :
    store.Relinked (store.edited edit) linked := by
  obtain ⟨_, _, heq⟩ := exists_edited_of_ofParams h
  rw [heq]
  exact fun _ _ => rfl

/-- **A change sets the enclosing link of one class at most.** -/
lemma exists_relinked (store : Store) (change : Change) :
    ∃ linked, store.Relinked (store.changed change) linked := by
  cases change with
  | modifyClass id change =>
      refine ⟨id, fun other hother => ?_⟩
      rw [changed, outer?, class?_modifyClass, outer?]
      simp [hother.symm]
  | edit edit =>
      cases edit with
      | internClass name =>
          refine ⟨(store.internClass name).1, fun other hother => ?_⟩
          simp only [changed, edited, outer?, class?_internClass_of_ne hother]
      | declareClass decl =>
          refine ⟨(store.internClass decl.name).1, fun other hother => ?_⟩
          simp only [changed, edited, declareClass, outer?]
          rw [class?, getElem?_setClass, class?_internClass_of_ne hother]
          simp [hother.symm]
      | redeclareClass id decl =>
          refine ⟨id, fun other hother => ?_⟩
          simp only [changed, edited, unlessRefused]
          split
          · rename_i hdone
            obtain ⟨old, -, rfl⟩ := exists_of_redeclareClass hdone
            rw [outer?, class?, getElem?_setClass, outer?]
            simp [hother.symm]
          · rfl
      | _ => exact ⟨⟨0⟩, relinked_of_ofParams (by trivial) _⟩

lemma Relinked.inside_iff (hsame : store.Relinked after linked)
    (hid : id ≠ linked) : after.WrittenInside id outer ↔ store.WrittenInside id outer := by
  rw [WrittenInside, hsame id hid, WrittenInside]

/-- A class whose links come to an end keeps that, if the one class whose link is set has it
afterwards or is not met. -/
lemma LeadsOut.of_relinked (hsame : store.Relinked after linked) (h : store.LeadsOut id)
    (hlinked : ReflTransGen store.WrittenInside id linked → after.LeadsOut linked) :
    after.LeadsOut id := by
  obtain ⟨last, hpath, hlast⟩ := h
  induction hpath using ReflTransGen.head_induction_on with
  | refl =>
      by_cases heq : last = linked
      · exact heq ▸ hlinked (heq ▸ .refl)
      · exact ⟨last, .refl, fun outer hinside => hlast outer ((hsame.inside_iff heq).mp hinside)⟩
  | @head id outer hinside _ ih =>
      by_cases heq : id = linked
      · exact heq ▸ hlinked (heq ▸ .refl)
      · exact (ih fun hpath => hlinked (.head hinside hpath)).head
          ((hsame.inside_iff heq).mpr hinside)

/-- A way to the one class whose link is set is there afterwards, up to where it first meets it. -/
lemma path_of_relinked (hsame : store.Relinked after linked)
    (hpath : ReflTransGen store.WrittenInside id linked) :
    ReflTransGen after.WrittenInside id linked := by
  induction hpath using ReflTransGen.head_induction_on with
  | refl => exact .refl
  | @head id outer hinside _ ih =>
      by_cases heq : id = linked
      · exact heq ▸ .refl
      · exact .head ((hsame.inside_iff heq).mpr hinside) ih

/-- **A change takes names away exactly if it closes a circle.** -/
lemma writable_changed_iff (h : store.Writable) (change : Change) :
    (store.changed change).Writable ↔ ¬ store.ClosesCircle change := by
  obtain ⟨linked, hsame⟩ := store.exists_relinked change
  have hbefore := writable_iff.mp h
  rw [writable_iff]
  constructor
  · rintro hafter ⟨id, outer, hinside, hpath⟩
    by_cases heq : id = linked
    · -- the way back to the class is still there, and now it can be gone in a circle
      subst heq
      exact leadsOut_iff.mp (hafter id)
        ⟨id, .refl, .head' hinside (path_of_relinked hsame hpath)⟩
    · exact leadsOut_iff.mp (hbefore id)
        ⟨id, .refl, .head' ((hsame.inside_iff heq).mp hinside) hpath⟩
  · intro hopen
    have hlinked : (store.changed change).LeadsOut linked := by
      by_cases hin : ∃ outer, (store.changed change).WrittenInside linked outer
      · obtain ⟨outer, hinside⟩ := hin
        refine ((hbefore outer).of_relinked hsame fun hpath => ?_).head hinside
        exact absurd ⟨linked, outer, hinside, hpath⟩ hopen
      · exact ⟨linked, .refl, fun outer hinside => hin ⟨outer, hinside⟩⟩
    exact fun id => (hbefore id).of_relinked hsame fun _ => hlinked

/-- **What can be written.**  After any changes of a store that could be written, a class has a name
exactly if its enclosing links do not run in a circle, and a type exactly if this holds of all
classes that are written out in it.  The store can be written at every moment of the run exactly if
no change closes a circle. -/
theorem names_written_iff {start : Store} (h : start.Writable) (changes : List Change) :
    let store := start.changedBy changes
    (∀ id, (store.qualifiedName? id).isSome = true ↔ ¬ store.RunsInCircle id) ∧
    (∀ ty, (store.typeName? ty).isSome = true ↔
      ∀ id ∈ store.spelled ty, ¬ store.RunsInCircle id) ∧
    ((∀ before rest, changes = before ++ rest → (start.changedBy before).Writable) ↔
      ∀ before change rest, changes = before ++ change :: rest →
        ¬ (start.changedBy before).ClosesCircle change) := by
  intro store
  refine ⟨fun id => isSome_qualifiedName?_iff_not_runsInCircle,
    fun ty => isSome_typeName?_iff_not_runsInCircle, ?_⟩
  exact forall_moments_iff Writable ClosesCircle h fun before change hwritable =>
    writable_changed_iff hwritable change

/-- An entry of a map has a key of its own. -/
def withKey : List Change :=
  [.edit (.declareClass { name := "java.util.Map$Entry$Key", enclosing := some ⟨31⟩ })]

/-- The key has a name then, as the map lies in no other class. -/
theorem withKey_written : collections.Writable ∧
    ((collections.changedBy withKey).qualifiedName? ⟨33⟩).isSome = true := by
  have hstart : collections.Writable := collections_consistent.writable
  have hlinks : (collections.changedBy withKey).outer? ⟨33⟩ = some ⟨31⟩ ∧
      (collections.changedBy withKey).outer? ⟨31⟩ = some ⟨30⟩ ∧
      (collections.changedBy withKey).outer? ⟨30⟩ = none := by
    decide +kernel
  refine ⟨hstart, ((names_written_iff hstart withKey).1 ⟨33⟩).mpr fun hkey => ?_⟩
  obtain ⟨entry, hinside, hentry⟩ := hkey.exists_outer
  obtain rfl : ⟨31⟩ = entry := Option.some.inj (hlinks.1.symm.trans hinside.1)
  obtain ⟨map, hinside, hmap⟩ := hentry.exists_outer
  obtain rfl : ⟨30⟩ = map := Option.some.inj (hlinks.2.1.symm.trans hinside.1)
  obtain ⟨outer, hinside, -⟩ := hmap.exists_outer
  rw [WrittenInside, hlinks.2.2] at hinside
  exact absurd hinside.1 (by simp)

/-- Two classes are added, and each one is said to lie in the other one. -/
def eachInOther : List Change :=
  [.edit (.internClass "com.example.A"), .edit (.internClass "com.example.B"),
    .modifyClass ⟨23⟩ fun decl => { decl with enclosing := some ⟨24⟩ },
    .modifyClass ⟨24⟩ fun decl => { decl with enclosing := some ⟨23⟩ }]

/-- The links of a class do not come to an end then.  It has no name, and neither has a type in
which it is written out. -/
theorem eachInOther_nameless :
    let store := core.changedBy eachInOther
    store.idOf? "com.example.A" = some ⟨23⟩ ∧ store.idOf? "com.example.B" = some ⟨24⟩ ∧
      ¬ store.LeadsOut ⟨23⟩ ∧ store.qualifiedName? ⟨23⟩ = none ∧
      store.typeName? (.array (.cls ⟨23⟩)) = none := by
  intro store
  have hfound : store.idOf? "com.example.A" = some ⟨23⟩ ∧
      store.idOf? "com.example.B" = some ⟨24⟩ := by decide +kernel
  have hlinks : store.outer? ⟨23⟩ = some ⟨24⟩ ∧ store.outer? ⟨24⟩ = some ⟨23⟩ := by decide +kernel
  have hcircle : store.RunsInCircle ⟨23⟩ :=
    .of_two ⟨hlinks.1, by decide⟩ ⟨hlinks.2, by decide⟩
  have hname : store.qualifiedName? ⟨23⟩ = none := qualifiedName?_eq_none_iff.mpr hcircle
  exact ⟨hfound.1, hfound.2, fun hends => hends.not_runsInCircle hcircle, hname,
    by simp [typeName?, hname]⟩

end Store

end JavaGenerics
