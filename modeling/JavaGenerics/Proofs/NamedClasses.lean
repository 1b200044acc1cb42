import JavaGenerics.Proofs.ConsistentStores
import JavaGenerics.Proofs.Mentions

/-!
# The classes that a signature names

A signature names classes, and the store gives each of them an id.  The names that come up are those
that the first segments of some class type make, and what the segments before the last one make is
the name of the class around it.

* `TypeSig.classTypes` — the class types in a signature, those in arguments included.
* `ClassTypeSig.Names` — a name that the first segments make, and the one in front of it.
* `Store.Naming` — what happens to a store when a class is named.  `Store.Namings` is that any
  number of times, for names of one kind.
* `Ty.MadeOf` — a type put together from given classes and variables, with wildcards in their place.
* `named_denote` — **the search for the type that a signature denotes names the classes of that
  signature**, at whatever point it fails, and what it finds is made of named classes.
-/

namespace JavaGenerics

open Relation Loading

/-! ## Class types in signatures -/

mutual

/-- The class types in a signature, at any depth. -/
def TypeSig.classTypes : TypeSig → List ClassTypeSig
  | .base _ => []
  | .cls sig => sig.classTypes
  | .var _ => []
  | .array component => component.classTypes

/-- A class type and the ones in its arguments. -/
def ClassTypeSig.classTypes : ClassTypeSig → List ClassTypeSig
  | .mk package segments => .mk package segments :: SegmentSig.classTypesAll segments

def SegmentSig.classTypesAll : List SegmentSig → List ClassTypeSig
  | [] => []
  | segment :: rest => segment.classTypes ++ SegmentSig.classTypesAll rest

def SegmentSig.classTypes : SegmentSig → List ClassTypeSig
  | .mk _ args => ArgSig.classTypesAll args

def ArgSig.classTypesAll : List ArgSig → List ClassTypeSig
  | [] => []
  | arg :: rest => arg.classTypes ++ ArgSig.classTypesAll rest

def ArgSig.classTypes : ArgSig → List ClassTypeSig
  | .any => []
  | .extending bound => bound.classTypes
  | .superOf bound => bound.classTypes
  | .exactly ty => ty.classTypes

end

namespace ClassTypeSig

/-- The name is that of the class which the first segments denote.  All of them but the last denote
the class around it, if there are more than one. -/
def Names (sig : ClassTypeSig) (outer : Option String) (name : String) : Prop :=
  ∃ count < sig.segments.length, name = sig.binaryNameOfFirst (count + 1) ∧
    outer = if count = 0 then none else some (sig.binaryNameOfFirst count)

/-- The name of a class type, as far as it goes in front of the name of another segment. -/
def stem (sig : ClassTypeSig) : String :=
  if sig.segments = [] then sig.packageName else sig.binaryName ++ "$"

variable (package : List String) (done : List SegmentSig) (segment : SegmentSig)
  (rest : List SegmentSig)

lemma binaryNameOfFirst_append :
    (mk package (done ++ rest)).binaryNameOfFirst done.length = (mk package done).binaryName := by
  simp [binaryName, binaryNameOfFirst, packageName, segments, ClassTypeSig.package]

lemma binaryName_concat :
    (mk package (done ++ [segment])).binaryName = (mk package done).stem ++ segment.name := by
  have hall : ∀ segments, (mk package segments).binaryName =
      (mk package done).packageName ++ "$".intercalate (segments.map SegmentSig.name) := by
    simp [binaryName, binaryNameOfFirst, packageName, segments, ClassTypeSig.package]
  rw [stem, hall, hall, List.map_append, List.map_singleton]
  split
  · rename_i hdone
    obtain rfl : done = [] := hdone
    simp
  · rename_i hdone
    have hdone : done ≠ [] := hdone
    rw [String.intercalate_append_of_ne_nil (by simpa using hdone) (by simp),
      String.intercalate_singleton]
    simp only [String.append_assoc]

lemma stem_concat : (mk package (done ++ [segment])).stem =
    (mk package done).stem ++ segment.name ++ "$" := by
  rw [stem, if_neg (by simp [segments]), binaryName_concat]

lemma binaryNameOfFirst_concat :
    (mk package (done ++ segment :: rest)).binaryNameOfFirst (done.length + 1) =
      (mk package done).stem ++ segment.name := by
  have h := binaryNameOfFirst_append package (done ++ [segment]) rest
  rw [List.append_assoc, List.singleton_append, List.length_append] at h
  rw [← binaryName_concat]
  exact h

/-- The name of the segments up to one of them is a name that the class type makes. -/
lemma names_concat : (mk package (done ++ segment :: rest)).Names
    (if done = [] then none else some (mk package done).binaryName)
    ((mk package done).stem ++ segment.name) := by
  refine ⟨done.length, by simp [segments], (binaryNameOfFirst_concat ..).symm, ?_⟩
  rw [binaryNameOfFirst_append]
  simp only [List.length_eq_zero_iff]

/-- A name stands behind that of the class around it and a dollar sign. -/
lemma Names.begins {sig : ClassTypeSig} {outer name : String} (h : sig.Names (some outer) name) :
    (outer ++ "$").toList <+: name.toList := by
  obtain ⟨package, segments⟩ := sig
  obtain ⟨count, hcount, rfl, houter⟩ := h
  obtain ⟨done, segment, rest, rfl, rfl⟩ : ∃ done segment rest,
      segments = done ++ segment :: rest ∧ count = done.length := by
    have hcount : count < segments.length := hcount
    refine ⟨segments.take count, segments[count], segments.drop (count + 1), ?_, ?_⟩
    · rw [← List.drop_eq_getElem_cons hcount, List.take_append_drop]
    · rw [List.length_take_of_le hcount.le]
  split at houter
  · cases houter
  · rename_i hdone
    obtain rfl := Option.some.inj houter
    have hne : (mk package done).segments ≠ [] := mt List.length_eq_zero_iff.mpr hdone
    rw [binaryNameOfFirst_concat, binaryNameOfFirst_append, stem, if_neg hne]
    exact ⟨segment.name.toList, by simp⟩

end ClassTypeSig

/-! ## Types made of classes and variables -/

/-- The type is put together from the given classes and variables, and wildcards are direct type
arguments only.  The type itself is no wildcard. -/
inductive Ty.MadeOf (classes : ClassId → Prop) (vars : TypeVarId → Prop) : Ty → Prop where
  | cls {id : ClassId} : classes id → MadeOf classes vars (.cls id)
  | applied {raw : ClassId} {args : List Ty} {owner : Option Ty} : classes raw →
      (∀ arg ∈ args, ∀ ty ∈ arg.content, MadeOf classes vars ty) →
      (∀ ty, owner = some ty → MadeOf classes vars ty) → MadeOf classes vars (.applied raw args owner)
  | var {var : TypeVarId} : vars var → MadeOf classes vars (.var var)
  | array {component : Ty} : MadeOf classes vars component → MadeOf classes vars (.array component)

namespace Ty.MadeOf

variable {classes classes' : ClassId → Prop} {vars : TypeVarId → Prop}

lemma mono {ty : Ty} (h : ty.MadeOf classes vars) (hclasses : ∀ id, classes id → classes' id) :
    ty.MadeOf classes' vars := by
  induction h with
  | cls hid => exact .cls (hclasses _ hid)
  | applied hraw _ _ ihargs ihowner => exact .applied (hclasses _ hraw) ihargs ihowner
  | var hvar => exact .var hvar
  | array _ ih => exact .array ih

/-- The types inside a type that is no wildcard are the type itself. -/
lemma content {ty : Ty} (h : ty.MadeOf classes vars) :
    ∀ inner ∈ ty.content, inner.MadeOf classes vars := by
  have hself : ty.content = [ty] := by cases h <;> rfl
  simpa [hself] using h

lemma nestIn {outer : Option Ty} {id : ClassId} {args : List Ty} (hid : classes id)
    (houter : ∀ ty, outer = some ty → ty.MadeOf classes vars)
    (hargs : ∀ arg ∈ args, ∀ ty ∈ arg.content, ty.MadeOf classes vars) :
    (nestIn outer id args).MadeOf classes vars := by
  unfold JavaGenerics.nestIn
  cases outer with
  | none =>
      dsimp only
      split
      · exact .cls hid
      · exact .applied hid hargs (by simp)
  | some owner =>
      dsimp only
      split
      · exact .applied hid hargs houter
      · exact .cls hid

end Ty.MadeOf

/-- The name is one that a class type in the signature makes, and the one in front of it. -/
def TypeSig.Names (sig : TypeSig) (outer : Option String) (name : String) : Prop :=
  ∃ cls ∈ sig.classTypes, cls.Names outer name

lemma TypeSig.Names.begins {sig : TypeSig} {outer name : String} (h : sig.Names (some outer) name) :
    (outer ++ "$").toList <+: name.toList := by
  obtain ⟨cls, -, hname⟩ := h
  exact hname.begins

/-- The variable is in sight under some name. -/
def Scope.Shows (scope : Scope) (var : TypeVarId) : Prop :=
  ∃ name, scope.get? name = some var

/-! ## Naming a class -/

namespace Store

/-- The class stands for a primitive, or it is found by a name. -/
def Finds (store : Store) (id : ClassId) : Prop :=
  (∃ p, store.wellKnown.primitives.get p = id) ∨ ∃ name, store.idOf? name = some id

/-- A class is named, where the name may stand behind that of an outer class: the name is interned,
or the class of the outer one is recorded as the one around it. -/
inductive Naming (names : Option String → String → Prop) : Store → Store → Prop where
  | interned (store : Store) {outer : Option String} {name : String} : names outer name →
      Naming names store (store.internClass name).2
  | enclosed (store : Store) {outerName name : String} {id outer : ClassId} :
      names (some outerName) name → store.idOf? name = some id →
      store.idOf? outerName = some outer →
      Naming names store (store.modifyClass id fun decl =>
        { decl with enclosing := some (decl.enclosing.getD outer) })

/-- Classes are named, one after the other. -/
def Namings (names : Option String → String → Prop) : Store → Store → Prop :=
  ReflTransGen (Naming names)

variable {names : Option String → String → Prop} {store after : Store}

instance : IsPreorder Store (Namings names) where
  refl _ := .refl
  trans _ _ _ := ReflTransGen.trans

/-- A class that is named is mentioned. -/
lemma Naming.mention (h : store.Naming names after) : store.Mention after := by
  cases h with
  | interned _ => exact .interned _ _
  | enclosed _ _ _ => exact .enclosed _ _ _

lemma Namings.mentions (h : store.Namings names after) : store.Mentions after :=
  ReflTransGen.mono (fun _ _ => Naming.mention) _ _ h

/-- **No name is forgotten where classes are named.** -/
lemma Namings.found (h : store.Namings names after) {name : String} {id : ClassId}
    (hid : store.idOf? name = some id) : after.idOf? name = some id :=
  h.mentions.fillsIn.found name id hid

lemma Namings.finds (h : store.Namings names after) (id : ClassId) (hid : store.Finds id) :
    after.Finds id := by
  rcases hid with ⟨p, hp⟩ | ⟨name, hname⟩
  · exact Or.inl ⟨p, by rw [h.mentions.fillsIn.wellKnown, hp]⟩
  · exact Or.inr ⟨name, h.found hname⟩

/-- What the segments of a class type denote: nothing if there are none, and a type of the class
with the name that they make. -/
def DenotedBy (store : Store) (scope : Scope) (sig : ClassTypeSig) : Option Ty → Prop
  | none => sig.segments = []
  | some ty => sig.segments ≠ [] ∧ ty.MadeOf store.Finds scope.Shows ∧
      ∃ id, ty.rawClass? = some id ∧ store.idOf? sig.binaryName = some id

lemma DenotedBy.mono {scope : Scope} {sig : ClassTypeSig} {denoted : Option Ty}
    (h : store.DenotedBy scope sig denoted) (hnamings : store.Namings names after) :
    after.DenotedBy scope sig denoted := by
  cases denoted with
  | none => exact h
  | some ty =>
      obtain ⟨hne, hmade, id, hraw, hid⟩ := h
      exact ⟨hne, hmade.mono hnamings.finds, id, hraw, hnamings.found hid⟩

end Store

/-! ## Translating signatures -/

variable {names : Option String → String → Prop}

lemma named_internClass {outer : Option String} {name : String} (h : names outer name)
    (store : Store) : Leaves (Store.Namings names) (Loading.internClass name) store
      fun id after => after.idOf? name = some id :=
  .modifyGet (.single (.interned store h)) (by rw [Store.idOf?_internClass, if_pos rfl])

/-- The class around a segment is what the segments before it denote. -/
lemma named_encloseBy {scope : Scope} {package : List String} {done : List SegmentSig} {name : String}
    {outer : Option Ty} {id : ClassId} {store : Store}
    (hname : names (if done = [] then none else some (ClassTypeSig.mk package done).binaryName) name)
    (hid : store.idOf? name = some id)
    (houter : store.DenotedBy scope (.mk package done) outer) :
    Leaves (Store.Namings names) (encloseBy (outer.bind Ty.rawClass?) id) store
      fun _ _ => True := by
  cases outer with
  | none => exact .pure trivial
  | some ty =>
      obtain ⟨hne, -, outerId, hraw, houterId⟩ := houter
      have hne : done ≠ [] := hne
      rw [if_neg hne] at hname
      rw [Option.bind_some, hraw]
      exact .modify (.single (.enclosed store hname hid houterId)) trivial

mutual

/-- **Where the type that a signature denotes is searched for, the classes of the signature are
named.**  What is found is made of named classes and of variables in the scope. -/
theorem named_denote (scope : Scope) : ∀ (sig : TypeSig) (store : Store),
    (∀ cls ∈ sig.classTypes, ∀ outer name, cls.Names outer name → names outer name) →
    Leaves (Store.Namings names) (denote scope sig) store fun ty after =>
      ty.MadeOf after.Finds scope.Shows
  | .base p, store, _ => by
    rw [denote]
    exact .get_bind (.pure (.cls (Or.inl ⟨p, rfl⟩)))
  | .var name, store, _ => by
    rw [denote]
    split
    · rename_i var hvar
      exact .pure (.var ⟨name, hvar⟩)
    · exact .throw _
  | .array component, store, hnames => by
    rw [denote]
    exact (named_denote scope component store hnames).bind fun _ _ _ hmade => .pure (.array hmade)
  | .cls sig, store, hnames => by
    rw [denote]
    exact (named_denoteClass scope sig store hnames).imp fun _ _ _ hdenoted => hdenoted.2.1

theorem named_denoteClass (scope : Scope) : ∀ (sig : ClassTypeSig) (store : Store),
    (∀ cls ∈ sig.classTypes, ∀ outer name, cls.Names outer name → names outer name) →
    Leaves (Store.Namings names) (denoteClass scope sig) store fun ty after =>
      after.DenotedBy scope sig (some ty)
  | .mk package segments, store, hnames => by
    rw [denoteClass]
    rw [ClassTypeSig.classTypes, List.forall_mem_cons] at hnames
    refine (named_denoteSegments scope package [] segments none store hnames.1 hnames.2 rfl).bind
      fun result after _ hresult => ?_
    cases result with
    | some ty => exact .pure hresult
    | none => exact .throw _

theorem named_denoteSegments (scope : Scope) (package : List String) :
    ∀ (done segments : List SegmentSig) (outer : Option Ty) (store : Store),
    (∀ outer name, (ClassTypeSig.mk package (done ++ segments)).Names outer name →
      names outer name) →
    (∀ cls ∈ SegmentSig.classTypesAll segments, ∀ outer name, cls.Names outer name →
      names outer name) →
    store.DenotedBy scope (.mk package done) outer →
    Leaves (Store.Namings names)
      (denoteSegments scope (ClassTypeSig.mk package done).stem outer segments) store
      fun result after => after.DenotedBy scope (.mk package (done ++ segments)) result
  | done, [], outer, store, _, _, houter => by
    rw [denoteSegments, List.append_nil]
    exact .pure houter
  | done, segment :: rest, outer, store, hnames, hinner, houter => by
    rw [denoteSegments, ← ClassTypeSig.stem_concat]
    rw [SegmentSig.classTypesAll, List.forall_mem_append] at hinner
    refine (named_denoteSegment scope package done segment outer store
      (hnames _ _ (ClassTypeSig.names_concat package done segment rest)) hinner.1 houter).bind
      fun ty after _ hty => ?_
    have hsplit : done ++ [segment] ++ rest = done ++ segment :: rest := by simp
    have hrest := named_denoteSegments scope package (done ++ [segment]) rest (some ty) after
      (hsplit ▸ hnames) hinner.2 hty
    rwa [hsplit] at hrest

theorem named_denoteSegment (scope : Scope) (package : List String) (done : List SegmentSig) :
    ∀ (segment : SegmentSig) (outer : Option Ty) (store : Store),
    names (if done = [] then none else some (ClassTypeSig.mk package done).binaryName)
      ((ClassTypeSig.mk package done).stem ++ segment.name) →
    (∀ cls ∈ segment.classTypes, ∀ outer name, cls.Names outer name → names outer name) →
    store.DenotedBy scope (.mk package done) outer →
    Leaves (Store.Namings names)
      (denoteSegment scope (ClassTypeSig.mk package done).stem outer segment) store
      fun ty after => after.DenotedBy scope (.mk package (done ++ [segment])) (some ty)
  | .mk name args, outer, store, hname, hinner, houter => by
    rw [denoteSegment]
    refine (named_internClass hname store).bind fun id store₁ h₁ hid => ?_
    refine (named_encloseBy hname hid (houter.mono h₁)).bind fun _ store₂ h₂ _ => ?_
    refine (named_denoteArgs scope args store₂ hinner).bind fun types store₃ h₃ htypes => .pure ?_
    have hid₃ := h₃.found (h₂.found hid)
    refine ⟨by simp [ClassTypeSig.segments],
      .nestIn (Or.inr ⟨_, hid₃⟩) ?_ htypes, id, rawClass?_nestIn outer id types, ?_⟩
    · rintro ty rfl
      have houter₃ := ((houter.mono h₁).mono h₂).mono h₃
      exact houter₃.2.1
    · rw [ClassTypeSig.binaryName_concat]
      exact hid₃

theorem named_denoteArgs (scope : Scope) : ∀ (args : List ArgSig) (store : Store),
    (∀ cls ∈ ArgSig.classTypesAll args, ∀ outer name, cls.Names outer name → names outer name) →
    Leaves (Store.Namings names) (denoteArgs scope args) store fun types after =>
      ∀ arg ∈ types, ∀ ty ∈ arg.content, ty.MadeOf after.Finds scope.Shows
  | [], store, _ => by
    rw [denoteArgs]
    exact .pure (by simp)
  | arg :: rest, store, hnames => by
    rw [denoteArgs]
    rw [ArgSig.classTypesAll, List.forall_mem_append] at hnames
    refine (named_denoteArg scope arg store hnames.1).bind fun first after _ hfirst => ?_
    refine (named_denoteArgs scope rest after hnames.2).bind fun types after' h' htypes => .pure ?_
    exact List.forall_mem_cons.mpr ⟨fun ty hty => (hfirst ty hty).mono h'.finds, htypes⟩

theorem named_denoteArg (scope : Scope) : ∀ (arg : ArgSig) (store : Store),
    (∀ cls ∈ arg.classTypes, ∀ outer name, cls.Names outer name → names outer name) →
    Leaves (Store.Namings names) (denoteArg scope arg) store fun arg after =>
      ∀ ty ∈ arg.content, ty.MadeOf after.Finds scope.Shows
  | .any, store, _ => by
    rw [denoteArg]
    exact .pure (by simp [Ty.unbounded, Ty.content])
  | .extending bound, store, hnames => by
    rw [denoteArg]
    exact (named_denote scope bound store hnames).bind fun _ _ _ hmade =>
      .pure (by simpa [Ty.extending, Ty.content] using hmade)
  | .superOf bound, store, hnames => by
    rw [denoteArg]
    exact (named_denote scope bound store hnames).bind fun _ _ _ hmade =>
      .pure (by simpa [Ty.superOf, Ty.content] using hmade)
  | .exactly ty, store, hnames => by
    rw [denoteArg]
    exact (named_denote scope ty store hnames).imp fun _ _ _ hmade => hmade.content

end

end JavaGenerics
