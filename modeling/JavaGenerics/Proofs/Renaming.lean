import JavaGenerics.Proofs.Directories

/-!
# Stores under edits of any kind

Declarations are added, replaced and renamed in any order, to names that may be in use already.  The
index entry of a name then changes hands, and it is erased by whoever gives the name up, also where
it leads to somebody else.

* `forall_moments_iff` — a run keeps a property exactly if none of its steps breaks it.
* `Store.Edit` — ways to add declarations to a store and to replace them.  An edit that is refused
  leaves the store as it was.
* `Store.Filing` — a directory of a store and what each edit files there.  One step is one
  `Directory.update`, so **what one update preserves is preserved by every run**
  (`Filing.truthful_editedBy`), and what one update may break is broken in a run by one of its edits
  (`Filing.finds_editedBy_iff`).
* `Store.indexes_truthful` — **no index ever lies**, whatever is renamed to whatever.
* `Store.found_by_name_iff` — an index may forget, however.  **The bearers of a name go on being
  found by it exactly as long as nobody is renamed to it while it is borne.**
-/

namespace JavaGenerics

/-- **What holds at the start holds at every moment of a run exactly if no step of the run breaks
it.**  It is enough to know so of single steps, where it has held so far. -/
lemma forall_moments_iff {σ α : Type} {step : σ → α → σ} {start : σ} {run : List α}
    (Holds : σ → Prop) (Breaks : σ → α → Prop) (hstart : Holds start)
    (hstep : ∀ (before : List α) a, Holds (before.foldl step start) →
      (Holds (step (before.foldl step start) a) ↔ ¬ Breaks (before.foldl step start) a)) :
    (∀ before rest, run = before ++ rest → Holds (before.foldl step start)) ↔
      ∀ before a rest, run = before ++ a :: rest → ¬ Breaks (before.foldl step start) a := by
  have hnext : ∀ (before : List α) a,
      (before ++ [a]).foldl step start = step (before.foldl step start) a :=
    fun _ _ => List.foldl_append
  constructor
  · rintro hall before a rest rfl
    have hafter := hall (before ++ [a]) rest (by simp)
    rw [hnext] at hafter
    exact (hstep before a (hall before _ rfl)).mp hafter
  · intro hnone before
    -- The moments of the run are reached one after the other.
    induction before using List.reverseRecOn with
    | nil => exact fun _ _ => hstart
    | append_singleton before a ih =>
        rintro rest rfl
        rw [hnext]
        exact (hstep before a (ih (a :: rest) (by simp))).mpr (hnone before a rest (by simp))

namespace Store

/-! ## Edits -/

/-- Ways to add declarations to a store and to replace them. -/
inductive Edit where
  | internClass (name : String)
  | declareClass (decl : ClassDecl)
  /-- A class is declared anew, perhaps under another name. -/
  | redeclareClass (id : ClassId) (decl : ClassDecl)
  | internParam (name : String) (declarer : Declarer)
  | declareParam (name : String) (declarer : Declarer) (bounds : List Ty)
  /-- A type variable is declared anew, perhaps under another name or by another element. -/
  | redeclareParam (var : TypeVarId) (param : TypeParam)
  | setBounds (var : TypeVarId) (bounds : List Ty)

/-- The edit is about type variables, not about classes. -/
def Edit.OfParams : Edit → Prop
  | .internParam _ _ | .declareParam _ _ _ | .redeclareParam _ _ | .setBounds _ _ => True
  | _ => False

/-- The store after a change, or as it was if the change is refused. -/
def unlessRefused (store : Store) : Except DeclError Store → Store
  | .ok after => after
  | .error _ => store

/-- The store after an edit. -/
def edited (store : Store) : Edit → Store
  | .internClass name => (store.internClass name).2
  | .declareClass decl => (store.declareClass decl).2
  | .redeclareClass id decl => store.unlessRefused (store.redeclareClass id decl)
  | .internParam name declarer => (store.internParam name declarer).2
  | .declareParam name declarer bounds => (store.declareParam name declarer bounds).2
  | .redeclareParam var param => store.unlessRefused (store.redeclareParam var param)
  | .setBounds var bounds => store.unlessRefused (store.setBounds var bounds)

/-- The store after some edits. -/
def editedBy (store : Store) (edits : List Edit) : Store :=
  edits.foldl edited store

variable {store after : Store}

/-! ## What an edit files -/

/-- What an edit files among the classes. -/
def filesClass (store : Store) : Edit → Option (ClassId × String)
  | .internClass name => store.classDirectory.interning ⟨store.classes.size⟩ name
  | .declareClass decl => store.classDirectory.interning ⟨store.classes.size⟩ decl.name
  | .redeclareClass id decl => store.classDirectory.rekeying id decl.name
  | _ => none

/-- What an edit files among the type variables. -/
def filesParam (store : Store) : Edit → Option (TypeVarId × (String × Declarer))
  | .internParam name declarer =>
    store.paramDirectory.interning ⟨store.params.size⟩ (name, declarer)
  | .declareParam name declarer _ =>
    store.paramDirectory.interning ⟨store.params.size⟩ (name, declarer)
  | .redeclareParam var param => store.paramDirectory.rekeying var (param.name, param.declarer)
  | _ => none

/-- Only a class that the store does not have cannot be declared anew. -/
lemma nameOf?_of_refused {id : ClassId} {decl : ClassDecl} {e : DeclError}
    (h : store.redeclareClass id decl = .error e) : store.nameOf? id = none := by
  cases hid : store.class? id with
  | none => rw [nameOf?, hid, Option.map_none]
  | some old => simp [redeclareClass, knownClass, hid] at h

lemma paramKey?_of_refused {var : TypeVarId} {param : TypeParam} {e : DeclError}
    (h : store.redeclareParam var param = .error e) : store.paramKey? var = none := by
  cases hvar : store.param? var with
  | none => rw [paramKey?, hvar, Option.map_none]
  | some old => simp [redeclareParam, knownParam, hvar] at h

/-- An edit of type variables leaves the classes as they are. -/
lemma exists_edited_of_ofParams {edit : Edit} (h : edit.OfParams) : ∃ params paramIndex,
    store.edited edit = { store with params := params, paramIndex := paramIndex } := by
  cases edit with
  | internClass _ => exact absurd h id
  | declareClass _ => exact absurd h id
  | redeclareClass _ _ => exact absurd h id
  | internParam name declarer =>
      simp only [edited, internParam]
      split <;> exact ⟨_, _, rfl⟩
  | declareParam name declarer bounds =>
      simp only [edited, declareParam, internParam]
      split <;> split <;> exact ⟨_, _, rfl⟩
  | redeclareParam var param =>
      simp only [edited, unlessRefused]
      split
      · rename_i hdone
        obtain ⟨_, -, rfl⟩ := exists_of_redeclareParam hdone
        exact ⟨_, _, rfl⟩
      · exact ⟨_, _, rfl⟩
  | setBounds var bounds =>
      simp only [edited, unlessRefused]
      split
      · rename_i hdone
        obtain ⟨_, -, rfl, -⟩ := param?_of_setBounds hdone
        exact ⟨_, _, rfl⟩
      · exact ⟨_, _, rfl⟩

lemma classDirectory_edited_of_ofParams {edit : Edit} (h : edit.OfParams) :
    (store.edited edit).classDirectory = store.classDirectory := by
  obtain ⟨_, _, heq⟩ := exists_edited_of_ofParams h
  rw [heq]
  rfl

lemma classDirectory_edited (edit : Edit) (h : store.classDirectory.Truthful) :
    (store.edited edit).classDirectory =
      store.classDirectory.update (store.filesClass edit) := by
  cases edit with
  | internClass name => exact store.classDirectory_internClass name
  | declareClass decl =>
      exact (classDirectory_declareClass h decl).trans (store.classDirectory_internClass decl.name)
  | redeclareClass id decl =>
      simp only [edited, unlessRefused, filesClass]
      split
      · rename_i hdone
        exact classDirectory_redeclareClass hdone
      · rename_i hrefused
        simp [Directory.rekeying, classDirectory, nameOf?_of_refused hrefused, Directory.update]
  | _ => exact classDirectory_edited_of_ofParams trivial

lemma paramDirectory_edited (edit : Edit) :
    (store.edited edit).paramDirectory =
      store.paramDirectory.update (store.filesParam edit) := by
  cases edit with
  | internClass name =>
      simp only [edited, internClass]
      split <;> rfl
  | declareClass decl =>
      simp only [edited, declareClass, internClass]
      split <;> rfl
  | redeclareClass id decl =>
      simp only [edited, unlessRefused]
      split
      · rename_i hdone
        obtain ⟨_, -, rfl⟩ := exists_of_redeclareClass hdone
        rfl
      · rfl
  | internParam name declarer => exact store.paramDirectory_internParam name declarer
  | declareParam name declarer bounds =>
      exact (store.paramDirectory_declareParam name declarer bounds).trans
        (store.paramDirectory_internParam name declarer)
  | redeclareParam var param =>
      simp only [edited, unlessRefused, filesParam]
      split
      · rename_i hdone
        exact paramDirectory_redeclareParam hdone
      · rename_i hrefused
        simp [Directory.rekeying, paramDirectory, paramKey?_of_refused hrefused, Directory.update]
  | setBounds var bounds =>
      simp only [edited, unlessRefused]
      split
      · rename_i hdone
        exact paramDirectory_setBounds hdone
      · rfl

/-! ## What crowds a name -/

/-- The edit gives the name to a class of another name, while some class bears it. -/
def RenamesClassOnto (store : Store) (name : String) : Edit → Prop
  | .redeclareClass id decl =>
    decl.name = name ∧ (∃ old, store.nameOf? id = some old ∧ old ≠ name) ∧
      ∃ other, store.nameOf? other = some name
  | _ => False

/-- The edit gives the name and the declaring element to a type variable that is identified by
others, while some variable is identified by them. -/
def RenamesParamOnto (store : Store) (key : String × Declarer) : Edit → Prop
  | .redeclareParam var param =>
    (param.name, param.declarer) = key ∧ (∃ old, store.paramKey? var = some old ∧ old ≠ key) ∧
      ∃ other, store.paramKey? other = some key
  | _ => False

lemma crowds_filesClass_iff {name : String} (h : store.classDirectory.Finds name) (edit : Edit) :
    store.classDirectory.Crowds name (store.filesClass edit) ↔
      store.RenamesClassOnto name edit := by
  cases edit with
  | internClass given => exact iff_of_false (h.not_crowds_interning _ given) id
  | declareClass decl => exact iff_of_false (h.not_crowds_interning _ decl.name) id
  | redeclareClass id decl => exact Directory.crowds_rekeying_iff _ id decl.name name
  | _ => simp [filesClass, RenamesClassOnto, Directory.Crowds]

lemma crowds_filesParam_iff {key : String × Declarer} (h : store.paramDirectory.Finds key)
    (edit : Edit) :
    store.paramDirectory.Crowds key (store.filesParam edit) ↔
      store.RenamesParamOnto key edit := by
  cases edit with
  | internParam name declarer => exact iff_of_false (h.not_crowds_interning _ (name, declarer)) id
  | declareParam name declarer _ =>
      exact iff_of_false (h.not_crowds_interning _ (name, declarer)) id
  | redeclareParam var param =>
      exact Directory.crowds_rekeying_iff _ var (param.name, param.declarer) key
  | _ => simp [filesParam, RenamesParamOnto, Directory.Crowds]

/-! ## Runs -/

/-- A directory of a store, what edits file there, and which of them crowd a key. -/
structure Filing (ι κ : Type) [DecidableEq ι] [DecidableEq κ] where
  directory : Store → Directory ι κ
  files : Store → Edit → Option (ι × κ)
  RenamesOnto : Store → κ → Edit → Prop
  directory_edited : ∀ {store} edit, (directory store).Truthful →
    directory (store.edited edit) = (directory store).update (files store edit)
  crowds_iff : ∀ {store key}, (directory store).Finds key → ∀ edit,
    (directory store).Crowds key (files store edit) ↔ RenamesOnto store key edit

namespace Filing

/-- The classes of a store. -/
def classes : Filing ClassId String where
  directory := classDirectory
  files := filesClass
  RenamesOnto := RenamesClassOnto
  directory_edited := classDirectory_edited
  crowds_iff := crowds_filesClass_iff

/-- The type variables of a store. -/
def params : Filing TypeVarId (String × Declarer) where
  directory := paramDirectory
  files := filesParam
  RenamesOnto := RenamesParamOnto
  directory_edited edit _ := paramDirectory_edited edit
  crowds_iff := crowds_filesParam_iff

variable {ι κ : Type} [DecidableEq ι] [DecidableEq κ] (filing : Filing ι κ)

/-- An edit does not make an index lie. -/
lemma truthful_edited (h : (filing.directory store).Truthful) (edit : Edit) :
    (filing.directory (store.edited edit)).Truthful := by
  rw [filing.directory_edited edit h]
  exact h.update _

/-- **No run makes an index lie.** -/
lemma truthful_editedBy (h : (filing.directory store).Truthful) (edits : List Edit) :
    (filing.directory (store.editedBy edits)).Truthful := by
  induction edits generalizing store with
  | nil => exact h
  | cons edit rest ih => exact ih (filing.truthful_edited h edit)

/-- A key goes on finding all its bearers exactly if the edit does not rename onto it. -/
lemma finds_edited_iff {key : κ} (h : (filing.directory store).Truthful)
    (hfinds : (filing.directory store).Finds key) (edit : Edit) :
    (filing.directory (store.edited edit)).Finds key ↔ ¬ filing.RenamesOnto store key edit := by
  rw [filing.directory_edited edit h, Directory.finds_update_iff hfinds,
    filing.crowds_iff hfinds edit]

/-- **A key finds all its bearers at every moment of a run exactly if no edit of the run renames
onto it.** -/
lemma finds_editedBy_iff {key : κ} (h : (filing.directory store).Truthful)
    (hfinds : (filing.directory store).Finds key) (edits : List Edit) :
    (∀ before rest, edits = before ++ rest →
        (filing.directory (store.editedBy before)).Finds key) ↔
      ∀ before edit rest, edits = before ++ edit :: rest →
        ¬ filing.RenamesOnto (store.editedBy before) key edit :=
  forall_moments_iff (fun store => (filing.directory store).Finds key)
    (fun store edit => filing.RenamesOnto store key edit) hfinds fun before edit hfound =>
      filing.finds_edited_iff (filing.truthful_editedBy h before) hfound edit

end Filing

/-! ## What can be relied upon -/

/-- A variable is found again where interning leads to it and adds nothing. -/
lemma internParam_eq_iff {name : String} {declarer : Declarer} {var : TypeVarId} :
    store.internParam name declarer = (var, store) ↔
      store.paramIndex.get? (name, declarer) = some var := by
  unfold internParam
  cases hkey : store.paramIndex.get? (name, declarer) with
  | some found => simp
  | none =>
      refine iff_of_false (fun h => ?_) (by simp)
      have hsize := congrArg (fun after : Store => after.params.size) (Prod.mk.inj h).2
      simp at hsize

/-- **Indexes never lie.**  In every store that any edits make of a stock store, what a name leads
to is a class of the store with exactly this name, and so for type variables and what identifies
them.  So interning a name leads to a class of that name, and different names do not lead to the
same class. -/
theorem indexes_truthful {start : Store} (hstart : start = core ∨ start = collections)
    (edits : List Edit) :
    let store := start.editedBy edits
    (∀ name id, store.idOf? name = some id →
      id.index < store.size ∧ ∃ decl, store.class? id = some decl ∧ decl.name = name) ∧
    (∀ name declarer var, store.paramIndex.get? (name, declarer) = some var →
      ∃ param, store.param? var = some param ∧ param.name = name ∧ param.declarer = declarer) ∧
    (∀ name, ∃ decl, (store.internClass name).2.class? (store.internClass name).1 = some decl ∧
      decl.name = name) ∧
    (∀ name name' id, store.idOf? name = some id → store.idOf? name' = some id → name = name') ∧
    ∀ key key' var, store.paramIndex.get? key = some var →
      store.paramIndex.get? key' = some var → key = key' := by
  intro store
  have hconsistent := consistent_of_stock hstart
  have hclasses : store.classDirectory.Truthful :=
    Filing.classes.truthful_editedBy hconsistent.classDirectory.1 edits
  have hparams : store.paramDirectory.Truthful :=
    Filing.params.truthful_editedBy hconsistent.paramDirectory.1 edits
  refine ⟨fun _ _ => class_of_truthful hclasses, fun _ _ _ => param_of_truthful hparams,
    fun name => nameOf?_eq_some.mp (nameOf?_internClass hclasses name),
    fun _ _ _ => hclasses.key_unique, fun _ _ _ => hparams.key_unique⟩

/-- Two classes are added, and the second one takes the name of the first one, and then its own name
again. -/
def takenAndReturned : List Edit :=
  [.internClass "com.example.Left", .internClass "com.example.Right",
    .redeclareClass ⟨24⟩ { name := "com.example.Left" },
    .redeclareClass ⟨24⟩ { name := "com.example.Right" }]

/-- The second name leads to the second class then. -/
theorem takenAndReturned_truthful :
    (core.editedBy takenAndReturned).idOf? "com.example.Right" = some ⟨24⟩ ∧
      ∃ decl, (core.editedBy takenAndReturned).class? ⟨24⟩ = some decl ∧
        decl.name = "com.example.Right" := by
  have hid : (core.editedBy takenAndReturned).idOf? "com.example.Right" = some ⟨24⟩ := by
    decide +kernel
  exact ⟨hid, ((indexes_truthful (Or.inl rfl) takenAndReturned).1 _ _ hid).2⟩

/-- **What is still found by its name.**  In a run of edits that starts with a stock store, all
classes that bear a name are found by it at every moment, exactly if no class of another name is
given the name while some class bears it.  And interning the name and the declaring element of a
type variable leads to this very variable and adds nothing, at every moment, exactly if no other
variable is given both of them while some variable has them. -/
theorem found_by_name_iff {start : Store} (hstart : start = core ∨ start = collections)
    (edits : List Edit) :
    (∀ name,
      (∀ before rest, edits = before ++ rest → ∀ id,
        (start.editedBy before).nameOf? id = some name →
          (start.editedBy before).idOf? name = some id) ↔
      ∀ before edit rest, edits = before ++ edit :: rest →
        ¬ (start.editedBy before).RenamesClassOnto name edit) ∧
    ∀ name declarer,
      (∀ before rest, edits = before ++ rest → ∀ var,
        (start.editedBy before).paramKey? var = some (name, declarer) →
          (start.editedBy before).internParam name declarer = (var, start.editedBy before)) ↔
      ∀ before edit rest, edits = before ++ edit :: rest →
        ¬ (start.editedBy before).RenamesParamOnto (name, declarer) edit := by
  have hconsistent := consistent_of_stock hstart
  obtain ⟨hclasses, hclass⟩ := hconsistent.classDirectory
  obtain ⟨hparams, hparam⟩ := hconsistent.paramDirectory
  refine ⟨fun name => Filing.classes.finds_editedBy_iff hclasses (hclass name) edits,
    fun name declarer => ?_⟩
  simp only [internParam_eq_iff]
  exact Filing.params.finds_editedBy_iff hparams (hparam (name, declarer)) edits

/-- A class is given another name, and its old name is interned again. -/
def givenUp : List Edit :=
  [.internClass "com.example.Left", .redeclareClass ⟨23⟩ { name := "com.example.Right" },
    .internClass "com.example.Left"]

/-- The old name leads to its new bearer then. -/
theorem givenUp_found :
    (core.editedBy givenUp).nameOf? ⟨24⟩ = some "com.example.Left" ∧
      (core.editedBy givenUp).idOf? "com.example.Left" = some ⟨24⟩ := by
  have hname : (core.editedBy givenUp).nameOf? ⟨24⟩ = some "com.example.Left" := by
    decide +kernel
  refine ⟨hname, ((found_by_name_iff (Or.inl rfl) givenUp).1 "com.example.Left").mpr ?_ givenUp []
    (by simp) ⟨24⟩ hname⟩
  intro before edit rest hsplit hrenames
  have hmem : edit ∈ givenUp := by simp [hsplit]
  cases edit with
  | redeclareClass id decl =>
      obtain ⟨hname, -⟩ := hrenames
      simp only [givenUp, List.mem_cons, reduceCtorEq, Edit.redeclareClass.injEq, false_or,
        List.not_mem_nil, or_false] at hmem
      rw [hmem.2] at hname
      exact absurd hname (by decide)
  | _ => exact hrenames

/-- Once its name has been taken and returned, the first class is not found by it any more, and the
name is interned as that of a third class. -/
theorem takenAndReturned_lost :
    (core.editedBy takenAndReturned).nameOf? ⟨23⟩ = some "com.example.Left" ∧
      (core.editedBy takenAndReturned).idOf? "com.example.Left" = none ∧
      ((core.editedBy takenAndReturned).internClass "com.example.Left").1 = ⟨25⟩ := by
  decide +kernel

end Store

end JavaGenerics
