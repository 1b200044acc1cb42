import JavaGenerics.Ty

/-!
# Variable bindings

Walking up a hierarchy records, for every type variable met on the way, the type it stands for.
Such a record is a finite map that is passed on by value: each step extends a copy.

* `Bindings` — the map.  Its entries are kept in ascending order of the variables' ids, so **two
  records with the same content are equal**, whatever the order in which they were filled.
* `Bindings.bind`, `Bindings.get?`, `Bindings.restrict` — its operations, with `get?_bind` saying
  that a binding is seen at its own variable and nowhere else.
* `Bindings.Order` — an order in which the entries may be gone through.  That of the ids is only one
  of them (`Bindings.byId`).
-/

namespace JavaGenerics

/-- Entries in strictly ascending order of their variables. -/
def AscendingVars (entries : List (TypeVarId × Ty)) : Prop :=
  entries.Pairwise fun a b => a.1.index < b.1.index

/-- Bindings of type variables to types. -/
structure Bindings where
  entries : List (TypeVarId × Ty)
  ascending : AscendingVars entries

namespace Bindings

/-! ## Operations -/

/-- No variable is bound. -/
def empty : Bindings :=
  ⟨[], List.Pairwise.nil⟩

instance : Inhabited Bindings := ⟨empty⟩

/-- Puts an entry at its place in an ascending list, over an older one for the same variable. -/
def insertEntry (var : TypeVarId) (ty : Ty) : List (TypeVarId × Ty) → List (TypeVarId × Ty)
  | [] => [(var, ty)]
  | (other, old) :: rest =>
    if var.index < other.index then (var, ty) :: (other, old) :: rest
    else if var.index = other.index then (var, ty) :: rest
    else (other, old) :: insertEntry var ty rest

theorem mem_insertEntry {var : TypeVarId} {ty : Ty} {entry : TypeVarId × Ty} :
    ∀ {entries : List (TypeVarId × Ty)}, entry ∈ insertEntry var ty entries →
      entry = (var, ty) ∨ entry ∈ entries
  | [], h => by simpa [insertEntry] using h
  | (other, old) :: rest, h => by
    simp only [insertEntry] at h
    split at h
    · simpa using h
    · split at h
      · rcases List.mem_cons.mp h with h | h
        · exact Or.inl h
        · exact Or.inr (List.mem_cons_of_mem _ h)
      · rcases List.mem_cons.mp h with h | h
        · exact Or.inr (by simp [h])
        · rcases mem_insertEntry h with h | h
          · exact Or.inl h
          · exact Or.inr (List.mem_cons_of_mem _ h)

theorem ascending_insertEntry (var : TypeVarId) (ty : Ty) :
    ∀ {entries : List (TypeVarId × Ty)}, AscendingVars entries →
      AscendingVars (insertEntry var ty entries)
  | [], _ => List.pairwise_singleton _ _
  | (other, old) :: rest, h => by
    obtain ⟨hhead, htail⟩ := List.pairwise_cons.mp h
    simp only [insertEntry]
    split
    · rename_i hlt
      refine List.pairwise_cons.mpr ⟨fun entry hmem => ?_, h⟩
      rcases List.mem_cons.mp hmem with rfl | hmem
      · exact hlt
      · exact Nat.lt_trans hlt (hhead entry hmem)
    · split
      · rename_i heq
        exact List.pairwise_cons.mpr
          ⟨fun entry hmem => by simpa [heq] using hhead entry hmem, htail⟩
      · rename_i hnlt hne
        refine List.pairwise_cons.mpr ⟨fun entry hmem => ?_, ascending_insertEntry var ty htail⟩
        rcases mem_insertEntry hmem with rfl | hmem
        · show other.index < var.index
          omega
        · exact hhead entry hmem

/-- Binds `var` to `ty`, over an older binding of the same variable. -/
def bind (bindings : Bindings) (var : TypeVarId) (ty : Ty) : Bindings :=
  ⟨insertEntry var ty bindings.entries, ascending_insertEntry var ty bindings.ascending⟩

/-- The type `var` is bound to. -/
def get? (bindings : Bindings) (var : TypeVarId) : Option Ty :=
  bindings.entries.lookup var

def contains (bindings : Bindings) (var : TypeVarId) : Bool :=
  (bindings.get? var).isSome

/-- The number of bound variables. -/
def size (bindings : Bindings) : Nat :=
  bindings.entries.length

def isEmpty (bindings : Bindings) : Bool :=
  bindings.entries.isEmpty

/-- The entries, in ascending order of their variables. -/
def toList (bindings : Bindings) : List (TypeVarId × Ty) :=
  bindings.entries

/-- An order in which the entries may be gone through. -/
structure Order (bindings : Bindings) where
  entries : List (TypeVarId × Ty)
  listed : entries.Perm bindings.toList

/-- The ascending order of the ids. -/
def byId (bindings : Bindings) : bindings.Order :=
  ⟨bindings.toList, .refl _⟩

/-- Binds every entry in turn, so that a later one for the same variable wins. -/
def ofList (entries : List (TypeVarId × Ty)) : Bindings :=
  entries.foldl (fun bindings entry => bindings.bind entry.1 entry.2) empty

/-- Keeps only the bindings of the listed variables. -/
def restrict (bindings : Bindings) (vars : List TypeVarId) : Bindings :=
  ⟨bindings.entries.filter fun entry => vars.contains entry.1,
    bindings.ascending.sublist List.filter_sublist⟩

/-- Equal content, with types compared up to owners. -/
instance : BEq Bindings := ⟨fun a b => a.entries == b.entries⟩

/-! ## What each operation does to a look-up -/

theorem ext {a b : Bindings} (h : a.entries = b.entries) : a = b := by
  cases a
  cases b
  cases h
  rfl

@[simp]
theorem get?_empty (var : TypeVarId) : empty.get? var = none := rfl

theorem lookup_insertEntry (var other : TypeVarId) (ty : Ty) :
    ∀ {entries : List (TypeVarId × Ty)}, AscendingVars entries →
      (insertEntry var ty entries).lookup other =
        if other = var then some ty else entries.lookup other
  | [], _ => by
    by_cases h : other = var
    · simp [insertEntry, h]
    · simp [insertEntry, List.lookup_cons, h, beq_eq_false_iff_ne.mpr h]
  | (first, old) :: rest, hasc => by
    obtain ⟨_, htail⟩ := List.pairwise_cons.mp hasc
    simp only [insertEntry]
    split
    · by_cases h : other = var
      · simp [h]
      · simp [List.lookup_cons, h, beq_eq_false_iff_ne.mpr h]
    · split
      · rename_i heq
        have hvar : var = first := by
          cases var
          cases first
          simpa using heq
        subst hvar
        by_cases h : other = var
        · simp [h]
        · simp [List.lookup_cons, h, beq_eq_false_iff_ne.mpr h]
      · rename_i hne
        have hvar : first ≠ var := fun h => hne (by rw [h])
        by_cases hfirst : other = first
        · subst hfirst
          simp [hvar]
        · simp [List.lookup_cons, beq_eq_false_iff_ne.mpr hfirst,
            lookup_insertEntry var other ty htail]

/-- **A binding is seen at its own variable and nowhere else.** -/
theorem get?_bind (bindings : Bindings) (var other : TypeVarId) (ty : Ty) :
    (bindings.bind var ty).get? other = if other = var then some ty else bindings.get? other :=
  lookup_insertEntry var other ty bindings.ascending

end Bindings

end JavaGenerics
