import JavaGenerics.Proofs.Placeholders
import JavaGenerics.Proofs.Renaming

/-!
# Translating a signature twice

To translate a signature changes the store, and it may fail halfway.  What does a second attempt
find?  Each class that was mentioned has an id by now, and the class around it is recorded, so the
second attempt has nothing left to do and ends like the first one.  It does so in every later store
too, as long as the ids and those records are there.

* `Store.Serves` — a store in which all that is found in another one is found.
* `OnlyMentions.again` — **what only mentions classes ends the same way in every store that serves
  the one it has left behind, and changes nothing there.**
* `Store.Arises` — the stores that edits and changes in place make of the stock stores, also those
  that give wrong names to classes.
* `Store.denote_extends` — all that a translation does to such a store, and what the type it finds
  is made of.
-/

namespace JavaGenerics

open Loading

namespace Store

variable {store after : Store}

/-! ## Serving stores -/

/-- What is found in the first store is found in the second one, and where a class around another
one is recorded, one is recorded there as well. -/
structure Serves (store later : Store) : Prop where
  wellKnown : later.wellKnown = store.wellKnown
  found : ∀ name id, store.idOf? name = some id → later.idOf? name = some id
  enclosed : ∀ id, (∃ outer, store.EnclosedBy id outer) → ∃ outer, later.EnclosedBy id outer

instance : IsPreorder Store Serves where
  refl _ := ⟨rfl, fun _ _ => id, fun _ => id⟩
  trans _ _ _ hab hbc :=
    ⟨hbc.wellKnown.trans hab.wellKnown,
      fun name id hname => hbc.found name id (hab.found name id hname),
      fun id henclosed => hbc.enclosed id (hab.enclosed id henclosed)⟩

lemma FillsIn.serves (h : store.FillsIn after) : store.Serves after where
  wellKnown := h.wellKnown
  found := h.found
  enclosed := by
    rintro id ⟨outer, decl, hdecl, houter⟩
    obtain ⟨filled, hfilled⟩ := h.filled id decl hdecl
    rw [ClassDecl.fillIn_of_enclosing houter] at hfilled
    exact ⟨outer, decl, hfilled, houter⟩

/-- Where a class around it is recorded, recording one changes nothing. -/
lemma modifyClass_of_enclosed {id outer : ClassId} (h : ∃ outer, store.EnclosedBy id outer) :
    (store.modifyClass id fun decl =>
      { decl with enclosing := some (decl.enclosing.getD outer) }) = store := by
  obtain ⟨around, decl, hdecl, haround⟩ := h
  have hsame : { decl with enclosing := some (decl.enclosing.getD outer) } = decl := by
    rw [haround, Option.getD_some, ← haround]
  obtain ⟨hlt, helem⟩ := Array.getElem?_eq_some_iff.mp hdecl
  simp only [modifyClass, hdecl, hsame]
  rw [Array.setIfInBounds_def, dif_pos hlt, ← helem, Array.set_getElem_self]

end Store

namespace Loading

variable {α : Type} {program : Loading α}

/-- The class is found again, and nothing is left to be recorded. -/
lemma mentionClass_again {outer : Option ClassId} {name : String} {store later : Store}
    (hstore : store.Indexed)
    (hlater : (runOn (mentionClass outer name) store).2.Serves later) :
    runOn (mentionClass outer name) later =
      ((runOn (mentionClass outer name) store).1, later) := by
  have hrun : ∀ store : Store, runOn (mentionClass outer name) store =
      (.ok (store.internClass name).1, match outer with
        | some outer => (store.internClass name).2.modifyClass (store.internClass name).1
            fun decl => { decl with enclosing := some (decl.enclosing.getD outer) }
        | none => (store.internClass name).2) := by
    intro store
    cases outer <;> rfl
  have hfind : (store.internClass name).2.idOf? name = some (store.internClass name).1 := by
    rw [Store.idOf?_internClass, if_pos rfl]
  rw [hrun] at hlater ⊢
  rw [hrun]
  cases outer with
  | none =>
      rw [Store.internClass_of_found (hlater.found _ _ hfind)]
  | some outer =>
      obtain ⟨decl, hdecl⟩ := hstore.of_grows (Store.grows_internClass store name) name _ hfind
      have hlaterFind := hlater.found name (store.internClass name).1
        (by rw [Store.idOf?_modifyClass]; exact hfind)
      have henclosed := hlater.enclosed (store.internClass name).1
        ⟨_, _, by rw [Store.class?_modifyClass, hdecl, Option.map_some, if_pos rfl], rfl⟩
      rw [Store.internClass_of_found hlaterFind]
      dsimp only
      rw [Store.modifyClass_of_enclosed henclosed]

/-- **What only mentions classes ends the same way in every store that serves the one it has left
behind, and changes nothing there.** -/
theorem OnlyMentions.again (h : OnlyMentions program) : ∀ store later : Store, store.Indexed →
    (runOn program store).2.Serves later →
    runOn program later = ((runOn program store).1, later) := by
  induction h with
  | pure a => exact fun _ _ _ _ => rfl
  | throw e => exact fun _ _ _ _ => rfl
  | primitive p =>
      intro store later _ hserves
      have hknown : later.wellKnown = store.wellKnown := hserves.wellKnown
      show (Except.ok (later.wellKnown.primitives.get p), later) = _
      rw [hknown]
      rfl
  | mentionClass outer name => exact fun _ _ hstore hserves => mentionClass_again hstore hserves
  | @bind _ _ program next hprogram hnext ih ihnext =>
      intro store later hstore hserves
      rw [runOn_bind] at hserves ⊢
      rw [runOn_bind]
      have hbefore := (hprogram.mentions store).1
      specialize ih store later hstore
      rcases hrun : runOn program store with ⟨e | a, middle⟩
      · rw [hrun] at hserves ih
        rw [ih hserves]
      · rw [hrun] at hserves ih hbefore
        have hafter := ((hnext a).mentions middle).1.fillsIn.serves
        rw [ih (trans_of Store.Serves hafter hserves)]
        exact ihnext a middle later (hstore.of_grows hbefore.grows) hserves

/-- Run on the store, the computation ends like this and changes nothing. -/
def Settled (program : Loading α) (store : Store) (result : Except SignatureError α) : Prop :=
  runOn program store = (result, store)

variable {store later : Store}

/-- What a computation has come to is settled in every store that serves the one it has left
behind. -/
lemma OnlyMentions.settled (h : OnlyMentions program) (hstore : store.Indexed) (later : Store)
    (hserves : (runOn program store).2.Serves later) :
    program.Settled later (runOn program store).1 :=
  h.again store later hstore hserves

/-- What is settled stays so. -/
lemma Settled.mono {result : Except SignatureError α} (hsettled : program.Settled store result)
    (h : OnlyMentions program) (hstore : store.Indexed) (hserves : store.Serves later) :
    program.Settled later result := by
  have hlater := h.settled hstore later (by rwa [hsettled])
  rwa [hsettled] at hlater

@[simp]
lemma settled_pure {a b : α} : Settled (pure a) store (.ok b) ↔ a = b := by
  show ((.ok a, store) : Except SignatureError α × Store) = (.ok b, store) ↔ a = b
  simp

variable {β : Type} {next : α → Loading β}

/-- The first part of a sequence that changes nothing changes nothing either: what it would record
has to be there at the end. -/
lemma Settled.of_bind_ok (h : OnlyMentions program) (hnext : ∀ a, OnlyMentions (next a))
    (hstore : store.Indexed) {b : β} (hsettled : (program >>= next).Settled store (.ok b)) :
    ∃ a, program.Settled store (.ok a) ∧ (next a).Settled store (.ok b) := by
  obtain ⟨a, middle, hfirst, hsecond⟩ := runOn_bind_eq_ok.mp hsettled
  have hback := ((hnext a).mentions middle).1.fillsIn.serves
  rw [hsecond] at hback
  have hsame := h.again store store hstore (by rwa [hfirst])
  obtain rfl : middle = store := by
    rw [hfirst] at hsame
    exact congrArg Prod.snd hsame
  exact ⟨a, hfirst, hsecond⟩

lemma Settled.of_bind_error (h : OnlyMentions program) (hnext : ∀ a, OnlyMentions (next a))
    (hstore : store.Indexed) {e : SignatureError}
    (hsettled : (program >>= next).Settled store (.error e)) :
    program.Settled store (.error e) ∨
      ∃ a, program.Settled store (.ok a) ∧ (next a).Settled store (.error e) := by
  rcases runOn_bind_eq_error.mp hsettled with hfirst | ⟨a, middle, hfirst, hsecond⟩
  · exact Or.inl hfirst
  · have hback := ((hnext a).mentions middle).1.fillsIn.serves
    rw [hsecond] at hback
    have hsame := h.again store store hstore (by rwa [hfirst])
    obtain rfl : middle = store := by
      rw [hfirst] at hsame
      exact congrArg Prod.snd hsame
    exact Or.inr ⟨a, hfirst, hsecond⟩

end Loading

namespace Store

variable {store : Store}

/-! ## Stores made by hand -/

/-- The stores that edits and changes in place make of a stock store.  Nothing keeps a change in
place from giving a class another name than the one it is found by. -/
inductive Arises : Store → Prop where
  | core : Arises core
  | collections : Arises collections
  | edited {store : Store} (edit : Edit) : Arises store → Arises (store.edited edit)
  | modified {store : Store} (id : ClassId) (change : ClassDecl → ClassDecl) :
      Arises store → Arises (store.modifyClass id change)

/-- Names lead to classes of the store, and so do the primitives. -/
structure Sound (store : Store) : Prop where
  indexed : store.Indexed
  primitives_known : ∀ p, store.Knows (store.wellKnown.primitives.get p)

lemma Sound.of_grows (h : store.Sound) (hgrows : store.Grows after) : after.Sound where
  indexed := h.indexed.of_grows hgrows
  primitives_known p := by
    rw [hgrows.wellKnown]
    exact hgrows.knows (h.primitives_known p)

/-- **An edit adds classes and renames them, but the index does not come to lead nowhere.** -/
lemma grows_edited (store : Store) (edit : Edit) : store.Grows (store.edited edit) := by
  cases edit with
  | internClass name => exact grows_internClass store name
  | declareClass decl =>
      have hset : (store.internClass decl.name).2.Grows (store.declareClass decl).2 :=
        grows_of_size_eq rfl (by simp [size, declareClass]) rfl
      exact trans_of Grows (grows_internClass store decl.name) hset
  | redeclareClass id decl =>
      simp only [edited, unlessRefused]
      split
      · rename_i hdone
        obtain ⟨old, hold, rfl⟩ := exists_of_redeclareClass hdone
        have hknown : store.Knows id := ⟨old, hold⟩
        refine ⟨rfl, by simp [size], fun name found hfound => ?_⟩
        rw [idOf?] at hfound
        dsimp only at hfound
        split at hfound
        · exact Or.inl hfound
        · rw [Index.get?_insert, Index.get?_erase] at hfound
          split at hfound
          · obtain rfl := Option.some.inj hfound
            exact Or.inr (knows_iff_lt_size.mpr (by simpa [size] using hknown.lt_size))
          · split at hfound
            · cases hfound
            · exact Or.inl hfound
      · exact refl_of Grows store
  | internParam name declarer =>
      simp only [edited, internParam]
      split <;> exact grows_of_size_eq rfl rfl rfl
  | declareParam name declarer bounds =>
      simp only [edited, declareParam, internParam]
      split <;> split <;> exact grows_of_size_eq rfl rfl rfl
  | redeclareParam var param =>
      simp only [edited, unlessRefused]
      split
      · rename_i hdone
        obtain ⟨_, -, rfl⟩ := exists_of_redeclareParam hdone
        exact grows_of_size_eq rfl rfl rfl
      · exact refl_of Grows store
  | setBounds var bounds =>
      simp only [edited, unlessRefused]
      split
      · rename_i hdone
        obtain ⟨_, -, rfl, -⟩ := param?_of_setBounds hdone
        exact grows_of_size_eq rfl rfl rfl
      · exact refl_of Grows store

lemma Consistent.sound (h : store.Consistent) : store.Sound where
  indexed name id hid := knows_iff.mpr ⟨name, (h.indexed name id).mp hid⟩
  primitives_known := h.primitives_known

/-- However a store has been made, it is sound. -/
lemma Arises.sound (h : store.Arises) : store.Sound := by
  induction h with
  | core => exact core_consistent.sound
  | collections => exact collections_consistent.sound
  | edited edit _ ih => exact ih.of_grows (grows_edited _ edit)
  | modified id change _ ih => exact ih.of_grows (grows_modifyClass _ id change)

/-! ## What a translation does to a store -/

/-- **Translating a signature extends the store, also where it fails.**  No class that was there
changes or goes by another name, except that the class around it is filled in where there was none.
The type variables stay as they are.  What is new are placeholders with names that class types of
the signature make.  The type that is found is made of classes of the store and of variables in
sight, with wildcards as direct type arguments only.  To translate the signature once more ends the
same way and changes nothing. -/
theorem denote_extends (h : store.Arises) (scope : Scope) (sig : TypeSig) :
    let result := (runOn (denote scope sig) store).1
    let after := (runOn (denote scope sig) store).2
    store.FillsIn after ∧ after.params = store.params ∧ after.paramIndex = store.paramIndex ∧
      store.Introduces sig.Names after ∧
      (∀ ty, result = .ok ty → ty.MadeOf after.Knows scope.Shows) ∧
      runOn (denote scope sig) after = (result, after) := by
  intro result after
  have hsound := h.sound
  obtain ⟨hnamings, hmade⟩ : Leaves (Namings sig.Names) (denote scope sig) store
      fun ty after => ty.MadeOf after.Finds scope.Shows :=
    named_denote scope sig store fun cls hcls _ _ hnames => ⟨cls, hcls, hnames⟩
  have hmentions : store.Mentions after := hnamings.mentions
  have hfills : store.FillsIn after := hmentions.fillsIn
  refine ⟨hfills, hmentions.params_eq.1, hmentions.params_eq.2,
    hnamings.introduces hsound.indexed, fun ty hty => (hmade ty hty).mono ?_,
    (onlyMentions_denote scope sig).again store after hsound.indexed (refl_of Serves after)⟩
  rintro id (⟨p, hp⟩ | ⟨name, hname⟩)
  · rw [← hp, hfills.wellKnown]
    exact hmentions.grows.knows (hsound.primitives_known p)
  · exact hsound.indexed.of_grows hmentions.grows name id hname

/-- The entries of a map that have lost the class around them. -/
def withStrayEntry : Store :=
  collections.modifyClass ⟨31⟩ fun decl => { decl with enclosing := none }

/-- Entries of a map, the second argument of which names a variable that is not in sight. -/
def strayEntrySig : TypeSig :=
  .cls (.mk ["java", "util"] [.mk "Map" [],
    .mk "Entry" [.exactly (.cls (.mk ["shop"] [.mk "Crate" [], .mk "Lid" []])), .exactly (.var "X")]])

/-- To translate them fails, and finds out where they belong.  The crate and its lid are new
then. -/
theorem withStrayEntry_extends :
    let after := (runOn (denote {} strayEntrySig) withStrayEntry).2
    (∀ name, after.idOf? name = some ⟨31⟩ ↔ withStrayEntry.idOf? name = some ⟨31⟩) ∧
      after.EnclosedBy ⟨31⟩ ⟨30⟩ ∧ after.EnclosedBy ⟨34⟩ ⟨33⟩ ∧ after.size = 35 ∧
      runOn (denote {} strayEntrySig) after = (.error (.notInScope "X"), after) := by
  obtain ⟨-, -, -, hintroduces, -, hagain⟩ :=
    denote_extends (.modified ⟨31⟩ (fun decl => { decl with enclosing := none }) .collections) {}
      strayEntrySig
  refine ⟨hintroduces.old ⟨31⟩ ⟨_, rfl⟩, ⟨_, rfl, rfl⟩, ⟨_, rfl, rfl⟩, rfl, hagain.trans ?_⟩
  rfl

end Store

end JavaGenerics
