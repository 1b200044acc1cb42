import JavaGenerics.Proofs.LoadingSteps

/-!
# Mentioned classes

To find the type that a signature denotes, the names in it are looked up, and that changes the
store: a class not heard of before gets a placeholder, and the class around a nested one is
recorded.  Nothing else happens, at whatever point the search fails.

* `Store.Mention` — one such change.
* `Store.Mentions` — any number of them, one after the other.
* `Loading.OnlyMentions` — a computation that does nothing else.  What it leaves behind is what
  mentions make of the store (`OnlyMentions.mentions`).
* `onlyMentions_denote` — **the search for a type is such a computation.**
* `Mentions.params_eq` — so it leaves the type variables alone.
* `Store.FillsIn` — and of the classes that are there it changes none, unless it fills in the class
  around one that has none (`Mentions.fillsIn`).
-/

namespace JavaGenerics

open Relation Loading

/-- The declaration with the class around it, unless there is one already. -/
def ClassDecl.fillIn (decl : ClassDecl) (outer : Option ClassId) : ClassDecl :=
  { decl with enclosing := decl.enclosing.or outer }

@[simp]
lemma ClassDecl.fillIn_none (decl : ClassDecl) : decl.fillIn none = decl := by
  simp [fillIn]

@[simp]
lemma ClassDecl.fillIn_fillIn (decl : ClassDecl) (first second : Option ClassId) :
    (decl.fillIn first).fillIn second = decl.fillIn (first.or second) := by
  simp [fillIn, Option.or_assoc]

/-- Where a class around it is known, nothing is filled in. -/
lemma ClassDecl.fillIn_of_enclosing {decl : ClassDecl} {outer : ClassId}
    (h : decl.enclosing = some outer) (other : Option ClassId) : decl.fillIn other = decl := by
  rw [fillIn, h, Option.some_or, ← h]

namespace Store

/-- A class is mentioned: its name is interned, or the class around it is recorded. -/
inductive Mention : Store → Store → Prop where
  | interned (store : Store) (name : String) : Mention store (store.internClass name).2
  | enclosed (store : Store) (id outer : ClassId) :
      Mention store (store.modifyClass id fun decl =>
        { decl with enclosing := some (decl.enclosing.getD outer) })

/-- Classes are mentioned, one after the other. -/
def Mentions : Store → Store → Prop :=
  ReflTransGen Mention

instance : IsPreorder Store Mentions where
  refl _ := .refl
  trans _ _ _ := ReflTransGen.trans

variable {store after : Store}

/-- Mentioning classes adds no type variable and changes none. -/
lemma Mentions.params_eq (h : store.Mentions after) :
    after.params = store.params ∧ after.paramIndex = store.paramIndex := by
  induction h with
  | refl => exact ⟨rfl, rfl⟩
  | tail _ hlast ih =>
      rw [← ih.1, ← ih.2]
      cases hlast with
      | interned name =>
          unfold internClass
          split <;> exact ⟨rfl, rfl⟩
      | enclosed id outer =>
          unfold modifyClass
          split <;> exact ⟨rfl, rfl⟩

lemma param?_of_params_eq (h : after.params = store.params) : after.param? = store.param? :=
  funext fun var => by rw [param?, param?, h]

/-! ## Classes that are there -/

/-- What is found in one store is found in the other one, and no declaration differs but for a class
around it, where there was none. -/
structure FillsIn (store after : Store) : Prop where
  wellKnown : after.wellKnown = store.wellKnown
  found : ∀ name id, store.idOf? name = some id → after.idOf? name = some id
  filled : ∀ id decl, store.class? id = some decl →
    ∃ outer, after.class? id = some (decl.fillIn outer)

instance : IsPreorder Store FillsIn where
  refl _ := ⟨rfl, fun _ _ => id, fun _ decl hdecl => ⟨none, by rw [hdecl, decl.fillIn_none]⟩⟩
  trans _ _ _ hab hbc := by
    refine ⟨hbc.wellKnown.trans hab.wellKnown,
      fun name id hname => hbc.found name id (hab.found name id hname), fun id decl hdecl => ?_⟩
    obtain ⟨first, hfirst⟩ := hab.filled id decl hdecl
    obtain ⟨second, hsecond⟩ := hbc.filled id _ hfirst
    exact ⟨first.or second, by rw [hsecond, ClassDecl.fillIn_fillIn]⟩

lemma fillsIn_of_classes_eq (hclasses : after.classes = store.classes)
    (hindex : after.classIndex = store.classIndex) (hknown : after.wellKnown = store.wellKnown) :
    store.FillsIn after where
  wellKnown := hknown
  found name id hname := by rwa [idOf?, hindex]
  filled id decl hdecl := ⟨none, by rwa [class?, hclasses, decl.fillIn_none]⟩

/-- A name that is found is interned already. -/
lemma internClass_of_found {name : String} {id : ClassId} (h : store.idOf? name = some id) :
    store.internClass name = (id, store) := by
  simp only [internClass, h]

/-- A name that is not found gets the next id. -/
lemma internClass_of_not_found {name : String} (h : store.idOf? name = none) :
    store.internClass name = (⟨store.classes.size⟩, { store with
      classes := store.classes.push { name := name }
      classIndex := store.classIndex.insert name ⟨store.classes.size⟩ }) := by
  simp only [internClass, h]

/-- What is found by a name after one has been interned. -/
lemma idOf?_internClass (store : Store) (name other : String) :
    (store.internClass name).2.idOf? other =
      if other = name then some (store.internClass name).1 else store.idOf? other := by
  cases hname : store.idOf? name with
  | some id =>
      rw [internClass_of_found hname]
      split
      · rename_i hother
        rw [hother, hname]
      · rfl
  | none =>
      rw [internClass_of_not_found hname]
      exact Index.get?_insert _ _ _ _

/-- Interning a name does not touch the classes that are there. -/
lemma class?_internClass {id : ClassId} {decl : ClassDecl} (hdecl : store.class? id = some decl)
    (name : String) : (store.internClass name).2.class? id = some decl := by
  cases hname : store.idOf? name with
  | some found => rwa [internClass_of_found hname]
  | none =>
      have hlt : id.index < store.classes.size := (Array.getElem?_eq_some_iff.mp hdecl).choose
      rw [internClass_of_not_found hname, class?, getElem?_pushClass, if_neg hlt.ne, hdecl]

lemma fillsIn_internClass (store : Store) (name : String) :
    store.FillsIn (store.internClass name).2 := by
  refine ⟨?_, fun other id hid => ?_, fun id decl hdecl => ⟨none, ?_⟩⟩
  · unfold internClass
    split <;> rfl
  · rw [idOf?_internClass]
    split
    · rename_i hother
      rw [internClass_of_found (hother ▸ hid)]
    · exact hid
  · rw [class?_internClass hdecl, decl.fillIn_none]

/-- What is found after a class has been changed in place. -/
lemma class?_modifyClass (store : Store) (id : ClassId) (change : ClassDecl → ClassDecl)
    (other : ClassId) : (store.modifyClass id change).class? other =
      (store.class? other).map fun decl => if id = other then change decl else decl := by
  unfold modifyClass
  cases hid : store.class? id with
  | some decl =>
      dsimp only
      rw [class?, getElem?_setClass]
      by_cases hother : id = other
      · rw [← hother, hid]
        simp
      · simp [hother]
  | none =>
      by_cases hother : id = other
      · rw [← hother, hid, Option.map_none]
      · simp [hother]

lemma idOf?_modifyClass (store : Store) (id : ClassId) (change : ClassDecl → ClassDecl) :
    (store.modifyClass id change).idOf? = store.idOf? := by
  unfold modifyClass
  split <;> rfl

lemma fillsIn_enclosed (store : Store) (id outer : ClassId) :
    store.FillsIn (store.modifyClass id fun decl =>
      { decl with enclosing := some (decl.enclosing.getD outer) }) := by
  refine ⟨?_, fun name found hname => by rwa [idOf?_modifyClass], fun other decl hdecl => ?_⟩
  · unfold modifyClass
    split <;> rfl
  · rw [class?_modifyClass, hdecl, Option.map_some]
    split
    · exact ⟨some outer, by simp [ClassDecl.fillIn]⟩
    · exact ⟨none, by rw [decl.fillIn_none]⟩

/-- **Mentioning classes changes none that is there**, unless the class around it is filled in. -/
lemma Mentions.fillsIn (h : store.Mentions after) : store.FillsIn after := by
  induction h with
  | refl => exact refl_of FillsIn store
  | tail _ hlast ih =>
      refine trans_of FillsIn ih ?_
      cases hlast with
      | interned name => exact fillsIn_internClass _ name
      | enclosed id outer => exact fillsIn_enclosed _ id outer

end Store

/-! ## Computations that mention classes -/

namespace Loading

/-- The class with this name, which is then recorded as lying inside another one. -/
def mentionClass (outer : Option ClassId) (name : String) : Loading ClassId := do
  let id ← internClass name
  encloseBy outer id
  return id

/-- The computation reads the ids of well-known classes and mentions classes, and changes nothing
else. -/
inductive OnlyMentions : {α : Type} → Loading α → Prop where
  | pure {α : Type} (a : α) : OnlyMentions (pure a)
  | throw {α : Type} (e : SignatureError) : OnlyMentions (throw e : Loading α)
  | primitive (p : Primitive) : OnlyMentions do return (← get).wellKnown.primitives.get p
  | mentionClass (outer : Option ClassId) (name : String) : OnlyMentions (mentionClass outer name)
  | bind {α β : Type} {program : Loading α} {next : α → Loading β} :
      OnlyMentions program → (∀ a, OnlyMentions (next a)) → OnlyMentions (program >>= next)

variable {α β : Type} {program : Loading α}

/-- To intern a name is to mention a class that does not lie inside another one. -/
lemma onlyMentions_internClass (name : String) : OnlyMentions (internClass name) :=
  .mentionClass none name

namespace OnlyMentions

lemma map (f : α → β) (h : OnlyMentions program) : OnlyMentions (f <$> program) := by
  rw [map_eq_pure_bind]
  exact h.bind fun a => .pure (f a)

/-- **What such a computation leaves behind is what mentions make of the store.** -/
lemma mentions (h : OnlyMentions program) (store : Store) :
    Leaves Store.Mentions program store fun _ _ => True := by
  induction h generalizing store with
  | pure a => exact .pure trivial
  | throw e => exact .throw e
  | primitive p => exact .get_bind (.pure trivial)
  | mentionClass outer name =>
      have hintern : Leaves Store.Mentions (internClass name) store fun _ _ => True :=
        .modifyGet (.single (.interned store name)) trivial
      refine hintern.bind fun id interned _ _ => ?_
      cases outer with
      | none => exact .pure trivial
      | some outer =>
          have henclose : Leaves Store.Mentions (encloseBy (some outer) id) interned
              fun _ _ => True :=
            .modify (.single (.enclosed interned id outer)) trivial
          exact henclose.bind fun _ _ _ _ => .pure trivial
  | bind _ _ ih ihnext => exact (ih store).bind fun a after _ _ => ihnext a after

end OnlyMentions

end Loading

/-! ## Translating signatures -/

mutual

/-- **To find the type that a signature denotes, classes are mentioned, and nothing else
happens.** -/
theorem onlyMentions_denote (scope : Scope) : ∀ sig : TypeSig, OnlyMentions (denote scope sig)
  | .base p => by
    rw [denote]
    exact (OnlyMentions.primitive p).map Ty.cls
  | .var name => by
    rw [denote]
    split
    · exact .pure _
    · exact .throw _
  | .array component => by
    rw [denote]
    exact (onlyMentions_denote scope component).bind fun _ => .pure _
  | .cls sig => by
    rw [denote]
    exact onlyMentions_denoteClass scope sig

theorem onlyMentions_denoteClass (scope : Scope) : ∀ sig : ClassTypeSig,
    OnlyMentions (denoteClass scope sig)
  | .mk package segments => by
    rw [denoteClass]
    refine (onlyMentions_denoteSegments scope _ none segments).bind fun result => ?_
    cases result with
    | some _ => exact .pure _
    | none => exact .throw _

theorem onlyMentions_denoteSegments (scope : Scope) : ∀ (stem : String) (outer : Option Ty)
    (segments : List SegmentSig), OnlyMentions (denoteSegments scope stem outer segments)
  | stem, outer, [] => by
    rw [denoteSegments]
    exact .pure _
  | stem, outer, segment :: rest => by
    rw [denoteSegments]
    exact (onlyMentions_denoteSegment scope stem outer segment).bind fun _ =>
      onlyMentions_denoteSegments scope _ _ rest

theorem onlyMentions_denoteSegment (scope : Scope) (stem : String) (outer : Option Ty) :
    ∀ segment : SegmentSig, OnlyMentions (denoteSegment scope stem outer segment)
  | .mk name args => by
    have hsteps : denoteSegment scope stem outer (.mk name args) = do
        let id ← mentionClass (outer.bind Ty.rawClass?) (stem ++ name)
        let types ← denoteArgs scope args
        return nestIn outer id types := by
      simp only [denoteSegment, mentionClass, bind_assoc, pure_bind]
    rw [hsteps]
    exact (OnlyMentions.mentionClass _ _).bind fun _ =>
      (onlyMentions_denoteArgs scope args).bind fun _ => .pure _

theorem onlyMentions_denoteArgs (scope : Scope) : ∀ args : List ArgSig,
    OnlyMentions (denoteArgs scope args)
  | [] => by
    rw [denoteArgs]
    exact .pure _
  | arg :: rest => by
    rw [denoteArgs]
    exact (onlyMentions_denoteArg scope arg).bind fun _ =>
      (onlyMentions_denoteArgs scope rest).bind fun _ => .pure _

theorem onlyMentions_denoteArg (scope : Scope) : ∀ arg : ArgSig,
    OnlyMentions (denoteArg scope arg)
  | .any => by
    rw [denoteArg]
    exact .pure _
  | .extending bound => by
    rw [denoteArg]
    exact (onlyMentions_denote scope bound).bind fun _ => .pure _
  | .superOf bound => by
    rw [denoteArg]
    exact (onlyMentions_denote scope bound).bind fun _ => .pure _
  | .exactly ty => by
    rw [denoteArg]
    exact onlyMentions_denote scope ty

end

namespace Loader

lemma onlyMentions_denoteAll (scope : Scope) : ∀ sigs : List TypeSig,
    OnlyMentions (denoteAll scope sigs)
  | [] => .pure _
  | sig :: rest => by
    rw [denoteAll]
    exact (onlyMentions_denote scope sig).bind fun _ =>
      (onlyMentions_denoteAll scope rest).bind fun _ => .pure _

lemma onlyMentions_denoteClasses (scope : Scope) : ∀ sigs : List ClassTypeSig,
    OnlyMentions (denoteClasses scope sigs)
  | [] => .pure _
  | sig :: rest => by
    rw [denoteClasses]
    exact (onlyMentions_denoteClass scope sig).bind fun _ =>
      (onlyMentions_denoteClasses scope rest).bind fun _ => .pure _

lemma onlyMentions_denoteResult (scope : Scope) (sig : Option TypeSig) :
    OnlyMentions (denoteResult scope sig) := by
  cases sig with
  | none => exact .pure _
  | some sig => exact (onlyMentions_denote scope sig).map some

lemma onlyMentions_denoteSuperclass (scope : Scope) (kind : DeclKind) (sig : ClassTypeSig) :
    OnlyMentions (denoteSuperclass scope kind sig) := by
  unfold denoteSuperclass
  split
  · exact .pure _
  · exact (onlyMentions_denoteClass scope sig).map some

lemma onlyMentions_internOuter (name : String) : OnlyMentions (internOuter name) := by
  unfold internOuter
  cases outerName? name with
  | none => exact .pure _
  | some outer => exact (onlyMentions_internClass outer).map some

end Loader

end JavaGenerics
