import JavaGenerics.Proofs.LoadedStores
import JavaGenerics.Proofs.NamedClasses

/-!
# Placeholders

A class that is named before it is declared is given an id and a declaration that says next to
nothing.  It is filled in later, and until then others may refer to it.

* `Store.Placeholder` — a declaration with a name that has been named, the class of the name in
  front of it around it, and nothing else.
* `Store.Introduces` — **all that one store has and the other one has not are placeholders**, and
  they alone are found by new names.
* `Namings.introduces` — so it is after classes have been named, if the index led to classes of the
  store.
-/

namespace JavaGenerics

open Relation

namespace Store

variable {names : Option String → String → Prop} {store after : Store}

/-! ## Names that lead somewhere -/

lemma knows_iff_lt_size {id : ClassId} : store.Knows id ↔ id.index < store.size :=
  ⟨Knows.lt_size, fun h => ⟨_, Array.getElem?_eq_getElem h⟩⟩

/-- No class is lost, and whatever the index finds now and did not find before is a class. -/
structure Grows (store after : Store) : Prop where
  wellKnown : after.wellKnown = store.wellKnown
  size_le : store.size ≤ after.size
  found : ∀ name id, after.idOf? name = some id → store.idOf? name = some id ∨ after.Knows id

lemma Grows.knows (h : store.Grows after) {id : ClassId} (hid : store.Knows id) :
    after.Knows id :=
  knows_iff_lt_size.mpr (hid.lt_size.trans_le h.size_le)

instance : IsPreorder Store Grows where
  refl _ := ⟨rfl, le_rfl, fun _ _ => Or.inl⟩
  trans _ _ _ hab hbc :=
    ⟨hbc.wellKnown.trans hab.wellKnown, hab.size_le.trans hbc.size_le, fun name id hid =>
      (hbc.found name id hid).elim (fun hid => (hab.found name id hid).imp_right hbc.knows) Or.inr⟩

/-- Names go on leading to classes of the store. -/
lemma Indexed.of_grows (h : store.Indexed) (hgrows : store.Grows after) : after.Indexed := by
  intro name id hid
  rcases hgrows.found name id hid with hfound | hknown
  · exact hgrows.knows (h name id hfound)
  · exact hknown

lemma grows_internClass (store : Store) (name : String) :
    store.Grows (store.internClass name).2 := by
  cases hname : store.idOf? name with
  | some id =>
      rw [internClass_of_found hname]
      exact refl_of Grows store
  | none =>
      refine ⟨(fillsIn_internClass store name).wellKnown, ?_, fun other id hid => ?_⟩
      · rw [internClass_of_not_found hname]
        simp [size]
      · rw [idOf?_internClass, internClass_of_not_found hname] at hid
        split at hid
        · obtain rfl := Option.some.inj hid
          rw [internClass_of_not_found hname]
          exact Or.inr (knows_iff_lt_size.mpr (by simp [size]))
        · exact Or.inl hid

lemma grows_of_size_eq (hknown : after.wellKnown = store.wellKnown)
    (hsize : after.size = store.size) (hindex : after.classIndex = store.classIndex) :
    store.Grows after :=
  ⟨hknown, hsize.ge, fun name id hid => Or.inl (by rwa [idOf?, ← hindex])⟩

lemma grows_modifyClass (store : Store) (id : ClassId) (change : ClassDecl → ClassDecl) :
    store.Grows (store.modifyClass id change) := by
  unfold modifyClass
  split
  · exact grows_of_size_eq rfl (by simp [size]) rfl
  · exact refl_of Grows store

lemma Mentions.grows (h : store.Mentions after) : store.Grows after := by
  induction h with
  | refl => exact refl_of Grows store
  | tail _ hlast ih =>
      refine trans_of Grows ih ?_
      cases hlast with
      | interned name => exact grows_internClass _ name
      | enclosed id outer => exact grows_modifyClass _ id _

/-! ## What is new -/

/-- The declaration has a name that has been named, and perhaps the class of the name in front of it
around it.  It says nothing else. -/
structure Placeholder (names : Option String → String → Prop) (store : Store)
    (decl : ClassDecl) : Prop where
  blank : decl = { name := decl.name, enclosing := decl.enclosing }
  named : ∃ outer, names outer decl.name
  around : ∀ outer, decl.enclosing = some outer →
    ∃ outerName, names (some outerName) decl.name ∧ store.idOf? outerName = some outer

/-- What the second store has more than the first one are placeholders, which are found by their
names.  No class of the first one is found by another name than before. -/
structure Introduces (names : Option String → String → Prop) (store after : Store) : Prop where
  old : ∀ id, store.Knows id → ∀ name, after.idOf? name = some id ↔ store.idOf? name = some id
  new : ∀ id, ¬ store.Knows id → ∀ name, after.idOf? name = some id ↔ after.nameOf? id = some name
  placeholder : ∀ id decl, ¬ store.Knows id → after.class? id = some decl →
    after.Placeholder names decl

lemma Placeholder.mono {decl : ClassDecl} (h : store.Placeholder names decl)
    (hfound : ∀ name id, store.idOf? name = some id → after.idOf? name = some id) :
    after.Placeholder names decl := by
  refine ⟨h.blank, h.named, fun outer houter => ?_⟩
  obtain ⟨outerName, hname, hid⟩ := h.around outer houter
  exact ⟨outerName, hname, hfound _ _ hid⟩

variable {middle : Store}

/-- A name that is not found is given an id that no class has. -/
lemma not_knows_internClass {name : String} (h : store.idOf? name = none) :
    ¬ store.Knows (store.internClass name).1 := by
  rw [internClass_of_not_found h]
  exact fun hknown => Nat.lt_irrefl _ hknown.lt_size

/-- The class that is added for it has a name and nothing else. -/
lemma class?_internClass_of_not_found {name : String} (h : store.idOf? name = none) (id : ClassId) :
    (store.internClass name).2.class? id =
      if id = (store.internClass name).1 then some { name := name } else store.class? id := by
  rw [internClass_of_not_found h, class?, getElem?_pushClass]
  exact if_congr (ClassId.index_injective.eq_iff (b := ⟨store.classes.size⟩)) rfl rfl

/-- Interning a name touches no class but the one that it leads to. -/
lemma class?_internClass_of_ne {name : String} {other : ClassId}
    (h : other ≠ (store.internClass name).1) :
    (store.internClass name).2.class? other = store.class? other := by
  cases hname : store.idOf? name with
  | some found => rw [internClass_of_found hname]
  | none => rw [class?_internClass_of_not_found hname, if_neg h]

/-- A name that is interned is that of a class which was there, or of a new placeholder. -/
lemma Introduces.internClass (h : store.Introduces names middle) (hindexed : middle.Indexed)
    (hknows : ∀ id, store.Knows id → middle.Knows id) {outer : Option String} {name : String}
    (hname : names outer name) : store.Introduces names (middle.internClass name).2 := by
  cases hfound : middle.idOf? name with
  | some id => rwa [internClass_of_found hfound]
  | none =>
      have hfind := middle.idOf?_internClass name
      have hclass := class?_internClass_of_not_found hfound
      have hfresh := not_knows_internClass hfound
      set new := (middle.internClass name).1
      refine ⟨fun id hid other => ?_, fun id hid other => ?_, fun id decl hid hdecl => ?_⟩
      · have hne : new ≠ id := by
          rintro rfl
          exact hfresh (hknows _ hid)
        rw [hfind, ← h.old id hid]
        split
        · rename_i hother
          simp [hother, hfound, hne]
        · rfl
      · rw [hfind, nameOf?, hclass]
        by_cases hnew : id = new
        · subst hnew
          rw [if_pos rfl]
          split
          · rename_i hother
            simp [hother]
          · rename_i hother
            refine iff_of_false (fun hfound => hfresh (hindexed _ _ hfound)) ?_
            simpa using Ne.symm hother
        · rw [if_neg hnew, ← nameOf?, ← h.new id hid]
          split
          · rename_i hother
            simp [hother, hfound, Ne.symm hnew]
          · rfl
      · rw [hclass] at hdecl
        split at hdecl
        · obtain rfl := Option.some.inj hdecl
          exact ⟨rfl, ⟨outer, hname⟩, by simp⟩
        · exact (h.placeholder id decl hid hdecl).mono (fillsIn_internClass middle name).found

/-- A placeholder that a class around it is recorded for is still one. -/
lemma Introduces.enclosed (h : store.Introduces names middle) {outerName name : String}
    {id outer : ClassId} (hname : names (some outerName) name) (hid : middle.idOf? name = some id)
    (houter : middle.idOf? outerName = some outer) :
    store.Introduces names (middle.modifyClass id fun decl =>
      { decl with enclosing := some (decl.enclosing.getD outer) }) := by
  set changed := middle.modifyClass id fun decl =>
    { decl with enclosing := some (decl.enclosing.getD outer) } with hchanged
  have hfind : changed.idOf? = middle.idOf? := idOf?_modifyClass _ _ _
  have hnames : changed.nameOf? = middle.nameOf? := by
    funext other
    rw [nameOf?, hchanged, class?_modifyClass, nameOf?, Option.map_map]
    refine Option.map_congr fun decl _ => ?_
    rw [Function.comp_apply, apply_ite ClassDecl.name, ite_self]
  refine ⟨fun other hother given => ?_, fun other hother given => ?_,
    fun other decl hother hdecl => ?_⟩
  · rw [hfind, h.old other hother]
  · rw [hfind, hnames, h.new other hother]
  rw [hchanged, class?_modifyClass, Option.map_eq_some_iff] at hdecl
  obtain ⟨before, hbefore, hpick⟩ := hdecl
  have hplaceholder : changed.Placeholder names before :=
    (h.placeholder other before hother hbefore).mono fun _ _ hfound => by rwa [hfind]
  split at hpick
  · rename_i hsame
    subst hsame
    -- The class is new, so the name that leads to it is its own.
    have hown : before.name = name := by
      have hnamed := (h.new id hother name).mp hid
      rw [nameOf?, hbefore, Option.map_some, Option.some.injEq] at hnamed
      exact hnamed
    rw [← hpick]
    refine ⟨?_, hplaceholder.named, fun around haround => ?_⟩
    · rw [hplaceholder.blank]
    · cases hinside : before.enclosing with
      | none =>
          obtain rfl : outer = around := by simpa [hinside] using haround
          exact ⟨outerName, hown ▸ hname, by rw [hfind, houter]⟩
      | some other =>
          obtain rfl : other = around := by simpa [hinside] using haround
          exact hplaceholder.around other hinside
  · exact hpick ▸ hplaceholder

/-- **Where classes are named, nothing but placeholders is new.** -/
lemma Namings.introduces (h : store.Namings names after) (hstore : store.Indexed) :
    store.Introduces names after := by
  induction h with
  | refl =>
      refine ⟨fun _ _ _ => Iff.rfl, fun id hid name => ?_, fun id decl hid hdecl => ?_⟩
      · refine iff_of_false (fun hfound => hid (hstore name id hfound)) fun hname => ?_
        exact hid (knows_iff.mpr ⟨name, hname⟩)
      · exact absurd ⟨decl, hdecl⟩ hid
  | tail hnamings hlast ih =>
      have hmentions := Namings.mentions hnamings
      cases hlast with
      | interned hname =>
          exact ih.internClass (hstore.of_grows hmentions.grows) (fun _ => hmentions.grows.knows)
            hname
      | enclosed hname hid houter => exact ih.enclosed hname hid houter

end Store

end JavaGenerics
