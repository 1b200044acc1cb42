/-!
# Indexes

A store answers "which class has this name?" and a scope answers "which variable is meant here?".
Both, and the cache of declarations too, need the same thing: finitely many keys, one value each,
with a later entry replacing an earlier one.

* `Index` — a finite map as a list of entries.
* `Index.get?`, `Index.insert`, `Index.erase` — its operations, pinned down by `get?_insert` and
  `get?_erase`: **an operation changes what is found at its own key and nowhere else.**
-/

namespace JavaGenerics

/-- A finite map from keys to values. -/
structure Index (κ ν : Type) where
  entries : List (κ × ν) := []
deriving Inhabited, Repr, DecidableEq

namespace Index

variable {κ ν : Type} [DecidableEq κ]

/-- The value recorded at `key`. -/
def get? (index : Index κ ν) (key : κ) : Option ν :=
  index.entries.lookup key

def contains (index : Index κ ν) (key : κ) : Bool :=
  (index.get? key).isSome

/-- Forgets what is recorded at `key`. -/
def erase (index : Index κ ν) (key : κ) : Index κ ν :=
  ⟨index.entries.filter fun entry => entry.1 != key⟩

/-- Records `value` at `key`, in place of what was recorded there before. -/
def insert (index : Index κ ν) (key : κ) (value : ν) : Index κ ν :=
  ⟨(key, value) :: (index.erase key).entries⟩

/-- The number of keys. -/
def size (index : Index κ ν) : Nat :=
  index.entries.length

/-! ## What each operation does to a look-up -/

@[simp]
theorem get?_empty (key : κ) : (Index.mk [] : Index κ ν).get? key = none := rfl

theorem lookup_filter_ne (entries : List (κ × ν)) (key other : κ) :
    (entries.filter fun entry => entry.1 != key).lookup other =
      if other = key then none else entries.lookup other := by
  induction entries with
  | nil => simp
  | cons entry rest ih =>
    obtain ⟨k, v⟩ := entry
    by_cases hk : k = key
    · subst hk
      by_cases ho : other = k
      · simpa [ho] using ih
      · simpa [List.lookup_cons, ho, beq_eq_false_iff_ne.mpr ho] using ih
    · by_cases ho : other = k
      · subst ho
        simp [hk]
      · simp [List.lookup_cons, hk, beq_eq_false_iff_ne.mpr ho, ih]

/-- What is found is one of the entries. -/
theorem mem_of_get? {index : Index κ ν} {key : κ} {value : ν} (h : index.get? key = some value) :
    (key, value) ∈ index.entries := by
  obtain ⟨before, behind, hentries, -⟩ := List.lookup_eq_some_iff.mp h
  simp [hentries]

theorem get?_erase (index : Index κ ν) (key other : κ) :
    (index.erase key).get? other = if other = key then none else index.get? other :=
  lookup_filter_ne index.entries key other

theorem get?_insert (index : Index κ ν) (key other : κ) (value : ν) :
    (index.insert key value).get? other =
      if other = key then some value else index.get? other := by
  by_cases h : other = key
  · subst h
    simp [get?, insert]
  · have := index.get?_erase key other
    simp only [get?, if_neg h] at this
    simp [get?, insert, List.lookup_cons, beq_eq_false_iff_ne.mpr h, h, this]

end Index

end JavaGenerics
