import Mathlib.Data.Finset.Card
import Mathlib.Order.Interval.Finset.Nat
import JavaGenerics.Proofs.Reachability
import JavaGenerics.Proofs.SimultaneousSubstitution

/-!
# Regular stores

A store accepts any declarations at all.  Most of what walking and assigning promise is promised for
hierarchies as a language would allow them, and `Store.Regular` says what that means: supertypes are
classes of the store with the right number of arguments, superclasses are classes and the others are
interfaces, every parameter belongs to one class, no class is above itself, and nothing is above
`Object`.  Walks get by without the last condition: `Store.Walkable` is the rest, and a regular
store is one of these.

`Store.Layered` is the part of it that is about kinds: enough to see that interfaces have interfaces
above them only, though edges may lead in circles.  `Store.Kinded` adds that `Object` is known.

In a walkable store the number of classes above a class, `Store.height`, falls with every edge.
That is the measure of every walk (`Walkable.height_lt`), and it stays below the number of classes
(`Walkable.height_lt_size`).
-/

namespace JavaGenerics

open Relation

/-- The type an applied class is nested in. -/
def Ty.owner? : Ty → Option Ty
  | .applied _ _ owner => owner
  | _ => none

namespace Store

variable (store : Store)

/-- The parameters a class declares.  A class that is not known declares none. -/
def paramsOf (id : ClassId) : List TypeVarId :=
  ((store.class? id).map ClassDecl.params).getD []

/-- What a class is declared as. -/
def kindOf? (id : ClassId) : Option DeclKind :=
  (store.class? id).map ClassDecl.kind

/-- A class of the store that stands for no primitive. -/
def Reference (id : ClassId) : Prop :=
  store.Knows id ∧ store.wellKnown.isPrimitive id = false

/-- A type that may be declared as a supertype: a class of the store that is no primitive, without
an owner and with as many arguments as the class has parameters. -/
def FitsClass (edge : Ty) (parent : ClassId) : Prop :=
  edge.rawClass? = some parent ∧ store.Reference parent ∧ edge.owner? = none ∧
    edge.args.length = (store.paramsOf parent).length

/-- A store whose supertypes are classes, and in which nothing but interfaces stands above an
interface.  Superclasses may be of any kind, and edges may lead in circles. -/
structure Layered : Prop where
  supertypes : ∀ id decl, store.class? id = some decl → ∀ edge ∈ decl.edges.supertypes,
    ∃ parent, edge.rawClass? = some parent ∧ store.Reference parent
  interfaces_kind : ∀ id decl, store.class? id = some decl → ∀ edge ∈ decl.interfaces,
    ∀ parent, edge.rawClass? = some parent → store.kindOf? parent = some .interface
  interface_top : ∀ id decl, store.class? id = some decl → decl.kind = .interface →
    decl.superclass = none

/-- A layered store that knows `Object`. -/
structure Kinded : Prop extends store.Layered where
  object_known : store.Knows store.wellKnown.object

/-- A store whose hierarchy can be walked. -/
structure Walkable : Prop where
  object_reference : store.Reference store.wellKnown.object
  /-- Every supertype can be followed. -/
  supertypes : ∀ id decl, store.class? id = some decl → ∀ edge ∈ decl.edges.supertypes,
    ∃ parent, store.FitsClass edge parent
  /-- The arguments of a supertype mention parameters of the declaring class only. -/
  own_vars : ∀ id decl, store.class? id = some decl → ∀ edge ∈ decl.edges.supertypes,
    ∀ v ∈ Ty.varsAll edge.args, v ∈ decl.params
  params_nodup : ∀ id, (store.paramsOf id).Nodup
  /-- Every parameter belongs to one class. -/
  params_disjoint : ∀ id id', id ≠ id' → (store.paramsOf id).Disjoint (store.paramsOf id')
  interfaces_kind : ∀ id decl, store.class? id = some decl → ∀ edge ∈ decl.interfaces,
    ∀ parent, edge.rawClass? = some parent → store.kindOf? parent = some .interface
  superclass_kind : ∀ id decl, store.class? id = some decl → ∀ edge, decl.superclass = some edge →
    ∀ parent, edge.rawClass? = some parent → store.kindOf? parent = some .ordinary
  interface_top : ∀ id decl, store.class? id = some decl → decl.kind = .interface →
    decl.superclass = none
  acyclic : ∀ id, ¬ TransGen store.Extends id id

/-- A store whose hierarchy is one that a language would allow: it can be walked, and nothing is
above `Object`. -/
structure Regular : Prop extends store.Walkable where
  object_top : ∀ decl, store.class? store.wellKnown.object = some decl →
    decl.superclass = none ∧ decl.interfaces = []

variable {store}

/-! ## Looking at declarations -/

lemma paramsOf_eq {id : ClassId} {decl : ClassDecl} (h : store.class? id = some decl) :
    store.paramsOf id = decl.params := by
  simp [paramsOf, h]

lemma kindOf?_eq {id : ClassId} {decl : ClassDecl} (h : store.class? id = some decl) :
    store.kindOf? id = some decl.kind := by
  simp [kindOf?, h]

lemma mem_supertypes {decl : ClassDecl} {edge : Ty} :
    edge ∈ decl.edges.supertypes ↔ decl.superclass = some edge ∨ edge ∈ decl.interfaces := by
  simp [Edges.supertypes, ClassDecl.edges]

lemma Extends.of_mem {id parent : ClassId} {decl : ClassDecl} (edge : Ty)
    (hdecl : store.class? id = some decl) (hedge : edge ∈ decl.edges.supertypes)
    (hraw : edge.rawClass? = some parent) : store.Extends id parent :=
  ⟨decl, hdecl, edge, hedge, hraw⟩

namespace Layered

variable (hlayers : store.Layered)

include hlayers

lemma nominal : store.Nominal := by
  intro id decl hdecl edge hedge
  obtain ⟨parent, hraw, hparent⟩ := hlayers.supertypes id decl hdecl edge hedge
  exact ⟨parent, hraw, hparent.1⟩

/-- Edges lead from an interface to interfaces only. -/
lemma interface_of_extends {id parent : ClassId} (h : store.Extends id parent)
    (hkind : store.kindOf? id = some .interface) : store.kindOf? parent = some .interface := by
  obtain ⟨decl, hdecl, edge, hedge, hraw⟩ := h
  rw [kindOf?_eq hdecl, Option.some.injEq] at hkind
  rcases mem_supertypes.mp hedge with hsuper | hinterface
  · rw [hlayers.interface_top id decl hdecl hkind] at hsuper
    exact absurd hsuper (by simp)
  · exact hlayers.interfaces_kind id decl hdecl edge hinterface parent hraw

lemma interface_of_path {id target : ClassId} (h : TransGen store.Extends id target)
    (hkind : store.kindOf? id = some .interface) : store.kindOf? target = some .interface := by
  induction h with
  | single hstep => exact hlayers.interface_of_extends hstep hkind
  | tail _ hstep ih => exact hlayers.interface_of_extends hstep ih

end Layered

namespace Walkable

variable (hwalk : store.Walkable)

include hwalk

lemma fits {id parent : ClassId} {decl : ClassDecl} {edge : Ty}
    (hdecl : store.class? id = some decl) (hedge : edge ∈ decl.edges.supertypes)
    (hraw : edge.rawClass? = some parent) : store.FitsClass edge parent := by
  obtain ⟨parent', hfits⟩ := hwalk.supertypes id decl hdecl edge hedge
  have : parent = parent' := by
    have h := hfits.1
    rw [hraw, Option.some.injEq] at h
    exact h
  exact this ▸ hfits

lemma kinded : store.Kinded where
  object_known := hwalk.object_reference.1
  supertypes id decl hdecl edge hedge := by
    obtain ⟨parent, hraw, hparent, -⟩ := hwalk.supertypes id decl hdecl edge hedge
    exact ⟨parent, hraw, hparent⟩
  interfaces_kind := hwalk.interfaces_kind
  interface_top := hwalk.interface_top

lemma nominal : store.Nominal :=
  hwalk.kinded.nominal

/-! ## Height -/

end Walkable

open Classical in
/-- The number of classes above a class. -/
noncomputable def height (store : Store) (id : ClassId) : Nat :=
  ((Finset.range store.size).filter fun n => TransGen store.Extends id ⟨n⟩).card

/-- Every edge leads to a class with fewer classes above it. -/
lemma Walkable.height_lt (hwalk : store.Walkable) {id parent : ClassId}
    (h : store.Extends id parent) : store.height parent < store.height id := by
  classical
  refine Finset.card_lt_card (Finset.ssubset_iff_of_subset ?_ |>.mpr ⟨parent.index, ?_, ?_⟩)
  · intro n hn
    rw [Finset.mem_filter] at hn ⊢
    exact ⟨hn.1, hn.2.head h⟩
  · rw [Finset.mem_filter, Finset.mem_range]
    exact ⟨(hwalk.nominal.knows_right h).lt_size, .single h⟩
  · rw [Finset.mem_filter, not_and]
    exact fun _ => hwalk.acyclic parent

lemma Walkable.height_lt_size (hwalk : store.Walkable) {id : ClassId} (h : store.Knows id) :
    store.height id < store.size := by
  classical
  have hss : (Finset.range store.size).filter (fun n => TransGen store.Extends id ⟨n⟩) ⊂
      Finset.range store.size := by
    refine Finset.ssubset_iff_of_subset (Finset.filter_subset _ _) |>.mpr
      ⟨id.index, Finset.mem_range.mpr h.lt_size, ?_⟩
    rw [Finset.mem_filter, not_and]
    exact fun _ => hwalk.acyclic id
  simpa [height] using Finset.card_lt_card hss

/-- A regular store may stand wherever a walkable one is asked for. -/
instance : Coe store.Regular store.Walkable :=
  ⟨Regular.toWalkable⟩

end Store

end JavaGenerics
