import Mathlib.Logic.Relation
import Mathlib.Data.List.Nodup
import Mathlib.Data.List.Range
import Mathlib.Data.List.Perm.Subperm
import JavaGenerics.Proofs.Answering

/-!
# The search finds what edges lead to

`Checker.leadsTo` searches a hierarchy breadth first, under a bound on the number of steps.  Here it
is compared with the relation it is meant to decide.  Declarations are accepted as they come, so
supertypes may lead back to where they started, to a class that no one has declared, or to something
that is no class at all.

* `Store.Extends` — one class declares a supertype of another class.
* `Store.Traversable` — a class from which the search can go on, and `Store.Fault` — what it reports
  of one from which it cannot.
* `Store.Found` — the answer a search should have: yes where the target is reachable, no where it is
  not and nothing was left out, and an error for a fault that is reachable too.
* `Checker.found_reaches` — **the search has such an answer on every store, before it runs out of
  steps**, and more steps do not change it.
* `Store.Nominal` — every declared supertype names a class of the store, so that no step of the
  search can fail.
* `Store.Below` — a class *is* another one, or lies below it, or the other one is `Object`.
* `Checker.answer_leadsTo` — **on a nominal store the search answers, and its answer is `Below`.**

The invariant of the search is `Checker.Explored`: what has been seen is reachable, and what is no
longer in line is traversable and has all its parents seen.  The bound on the steps is never the
reason to stop, because every step takes a class out of line and no class gets in twice.
-/

namespace JavaGenerics

open Relation

lemma ClassId.index_injective : Function.Injective ClassId.index := by
  rintro ⟨_⟩ ⟨_⟩ rfl
  rfl

namespace Store

variable (store : Store)

/-- `parent` is the class of a supertype that `child` declares. -/
def Extends (child parent : ClassId) : Prop :=
  ∃ decl, store.class? child = some decl ∧
    ∃ edge ∈ decl.edges.supertypes, edge.rawClass? = some parent

/-- The store has a declaration for the class. -/
def Knows (id : ClassId) : Prop :=
  ∃ decl, store.class? id = some decl

/-- Every declared supertype names a class of the store. -/
def Nominal : Prop :=
  ∀ id decl, store.class? id = some decl → ∀ edge ∈ decl.edges.supertypes,
    ∃ parent, edge.rawClass? = some parent ∧ store.Knows parent

/-- A class is the other one, or the other one is `Object`, or edges lead from it there. -/
def Below (id target : ClassId) : Prop :=
  id = target ∨ target = store.wellKnown.object ∨ TransGen store.Extends id target

/-- The class is declared, and all its supertypes name classes. -/
def Traversable (id : ClassId) : Prop :=
  ∃ decl, store.class? id = some decl ∧
    ∀ edge ∈ decl.edges.supertypes, ∃ parent, edge.rawClass? = some parent

/-- What is reported of a class from which a search cannot go on. -/
inductive Fault (id : ClassId) : DeclError → Prop
  | unknown (h : store.class? id = none) : Fault id (.unknownClass id)
  | supertype {decl : ClassDecl} {edge : Ty} (hdecl : store.class? id = some decl)
      (hedge : edge ∈ decl.edges.supertypes) (hraw : edge.rawClass? = none) :
      Fault id (.badSupertype (store.qualifiedName? id) (store.typeName? edge))

/-- The result answers whether edges lead from one class to another.  Where it says no, everything
that is reachable has been looked at; where it is an error, its cause is reachable. -/
def Found (source target : ClassId) : Except DeclError Bool → Prop
  | .ok true => ReflTransGen store.Extends source target
  | .ok false => ¬ ReflTransGen store.Extends source target ∧
      ∀ id, ReflTransGen store.Extends source id → store.Traversable id
  | .error e => ∃ id, ReflTransGen store.Extends source id ∧ store.Fault id e

variable {store}

lemma Knows.lt_size {id : ClassId} (h : store.Knows id) : id.index < store.size := by
  obtain ⟨decl, hdecl⟩ := h
  obtain ⟨hlt, -⟩ := Array.getElem?_eq_some_iff.mp hdecl
  exact hlt

lemma Nominal.knows_right {child parent : ClassId} (hnom : store.Nominal)
    (h : store.Extends child parent) : store.Knows parent := by
  obtain ⟨decl, hdecl, edge, hedge, hraw⟩ := h
  obtain ⟨parent', hraw', hknows⟩ := hnom child decl hdecl edge hedge
  rw [hraw, Option.some.injEq] at hraw'
  exact hraw' ▸ hknows

/-- There is no fault in a class that can be traversed. -/
lemma Traversable.not_fault {id : ClassId} {e : DeclError} (h : store.Traversable id) :
    ¬ store.Fault id e := by
  obtain ⟨decl, hdecl, hedges⟩ := h
  rintro (hnone | ⟨hdecl', hedge, hraw⟩)
  · rw [hdecl] at hnone
    exact absurd hnone (by simp)
  · rw [hdecl, Option.some.injEq] at hdecl'
    subst hdecl'
    obtain ⟨parent, hparent⟩ := hedges _ hedge
    rw [hraw] at hparent
    exact absurd hparent (by simp)

/-- In a nominal store, everything that is reachable from a known class can be traversed. -/
lemma Nominal.traversable {source id : ClassId} (hnom : store.Nominal)
    (hsource : store.Knows source) (hpath : ReflTransGen store.Extends source id) :
    store.Traversable id := by
  have hid : store.Knows id := by
    induction hpath with
    | refl => exact hsource
    | tail _ hstep _ => exact hnom.knows_right hstep
  obtain ⟨decl, hdecl⟩ := hid
  refine ⟨decl, hdecl, fun edge hedge => ?_⟩
  obtain ⟨parent, hparent, -⟩ := hnom id decl hdecl edge hedge
  exact ⟨parent, hparent⟩

/-- An answer that is found in a nominal store is a yes or a no. -/
lemma Found.of_nominal {source target : ClassId} {result : Except DeclError Bool}
    (hfound : store.Found source target result) (hnom : store.Nominal)
    (hsource : store.Knows source) :
    ∃ b, result = .ok b ∧ (b = true ↔ ReflTransGen store.Extends source target) := by
  cases result with
  | ok b =>
      cases b with
      | true => exact ⟨true, rfl, iff_of_true rfl hfound⟩
      | false => exact ⟨false, rfl, iff_of_false (by simp) hfound.1⟩
  | error e =>
      obtain ⟨id, hid, hfault⟩ := hfound
      exact absurd hfault (hnom.traversable hsource hid).not_fault

/-- Distinct classes of a store are no more than the store holds. -/
lemma length_le_size {ids : List ClassId} (hnodup : ids.Nodup)
    (hknown : ∀ id ∈ ids, store.Knows id) :
    ids.length ≤ store.size := by
  have hinj : (ids.map ClassId.index).Nodup := hnodup.map ClassId.index_injective
  have hsub : ids.map ClassId.index ⊆ List.range store.size := by
    intro n hn
    obtain ⟨id, hid, rfl⟩ := List.mem_map.mp hn
    exact List.mem_range.mpr (hknown id hid).lt_size
  simpa using (List.subperm_of_subset hinj hsub).length_le

end Store

namespace Checker

variable {checker : Checker}

/-! ## One class at a time -/

/-- The classes of declared supertypes. -/
def edgeClasses (edges : List Ty) : List ClassId :=
  edges.filterMap Ty.rawClass?

lemma mem_edgeClasses {store : Store} {id : ClassId} {decl : ClassDecl}
    (hdecl : store.class? id = some decl) {parent : ClassId} :
    parent ∈ edgeClasses decl.edges.supertypes ↔ store.Extends id parent := by
  simp [edgeClasses, Store.Extends, hdecl]

/-- What scanning the supertypes of one class does to the classes in line and the classes seen. -/
structure Scanned (parents queue seen queue' seen' : List ClassId) : Prop where
  mem_seen : ∀ id, id ∈ seen' ↔ id ∈ seen ∨ id ∈ parents
  mem_queue : ∀ id, id ∈ queue' ↔ id ∈ queue ∨ (id ∈ parents ∧ id ∉ seen)
  nodup : seen.Nodup → seen'.Nodup
  length : queue'.length + seen.length = queue.length + seen'.length

/-- The scan stops at the target, or else puts exactly the new parents in line. -/
lemma scanSupertypes_cases (checker : Checker) (current target : ClassId) :
    ∀ (edges : List Ty) (queue seen : List ClassId),
    (∀ edge ∈ edges, ∃ parent, edge.rawClass? = some parent) →
    (target ∈ edgeClasses edges ∧
      checker.scanSupertypes current target edges queue seen = .ok none) ∨
    (target ∉ edgeClasses edges ∧ ∃ queue' seen',
      checker.scanSupertypes current target edges queue seen = .ok (some (queue', seen')) ∧
      Scanned (edgeClasses edges) queue seen queue' seen')
  | [], queue, seen, _ => by
    refine Or.inr ⟨by simp [edgeClasses], queue, seen, rfl, ?_⟩
    constructor <;> simp [edgeClasses]
  | edge :: rest, queue, seen, hraw => by
    obtain ⟨parent, hparent⟩ := hraw edge (by simp)
    have hclasses : edgeClasses (edge :: rest) = parent :: edgeClasses rest := by
      simp [edgeClasses, hparent]
    have hrest : ∀ e ∈ rest, ∃ parent, e.rawClass? = some parent :=
      fun e he => hraw e (by simp [he])
    rw [hclasses]
    simp only [scanSupertypes, supertypeClass, hparent, ok_bind]
    by_cases htarget : parent = target
    · subst htarget
      exact Or.inl ⟨by simp, by simp⟩
    by_cases hseen : parent ∈ seen
    · rcases scanSupertypes_cases checker current target rest queue seen hrest with
        ⟨hmem, hrun⟩ | ⟨hmem, queue', seen', hrun, hscan⟩
      · exact Or.inl ⟨by simp [hmem], by simp [htarget, hseen, hrun]⟩
      · refine Or.inr ⟨by simp [hmem, Ne.symm htarget], queue', seen',
          by simp [htarget, hseen, hrun], ?_⟩
        refine ⟨fun id => ?_, fun id => ?_, hscan.nodup, hscan.length⟩
        · rw [hscan.mem_seen id, List.mem_cons]
          by_cases hid : id = parent
          · simp [hid, hseen]
          · simp [hid]
        · rw [hscan.mem_queue id, List.mem_cons]
          by_cases hid : id = parent
          · simp [hid, hseen]
          · simp [hid]
    · rcases scanSupertypes_cases checker current target rest (queue ++ [parent]) (parent :: seen)
        hrest with ⟨hmem, hrun⟩ | ⟨hmem, queue', seen', hrun, hscan⟩
      · exact Or.inl ⟨by simp [hmem], by simp [htarget, hseen, hrun]⟩
      · refine Or.inr ⟨by simp [hmem, Ne.symm htarget], queue', seen',
          by simp [htarget, hseen, hrun], ?_⟩
        refine ⟨fun id => ?_, fun id => ?_, fun h => hscan.nodup (by simp [h, hseen]), ?_⟩
        · rw [hscan.mem_seen id, List.mem_cons, List.mem_cons]
          tauto
        · rw [hscan.mem_queue id, List.mem_append, List.mem_singleton, List.mem_cons, List.mem_cons]
          by_cases hid : id = parent
          · simp [hid, hseen]
          · simp [hid]
        · have := hscan.length
          simp only [List.length_append, List.length_cons, List.length_nil] at this
          omega

/-- Where some supertype is no class, the scan stops at the target or reports a supertype that is
none. -/
lemma scanSupertypes_blocked (checker : Checker) (current target : ClassId) :
    ∀ (edges : List Ty) (queue seen : List ClassId), (∃ edge ∈ edges, edge.rawClass? = none) →
      (target ∈ edgeClasses edges ∧
        checker.scanSupertypes current target edges queue seen = .ok none) ∨
      ∃ edge ∈ edges, edge.rawClass? = none ∧
        checker.scanSupertypes current target edges queue seen = .error
          (.badSupertype (checker.store.qualifiedName? current) (checker.store.typeName? edge))
  | [], _, _, h => absurd h (by simp)
  | edge :: rest, queue, seen, h => by
    cases hraw : edge.rawClass? with
    | none =>
        exact Or.inr ⟨edge, by simp, hraw, by simp [scanSupertypes, supertypeClass, hraw]⟩
    | some parent =>
        have hclasses : edgeClasses (edge :: rest) = parent :: edgeClasses rest := by
          simp [edgeClasses, hraw]
        have hrest : ∃ edge ∈ rest, edge.rawClass? = none := by simpa [hraw] using h
        simp only [hclasses, scanSupertypes, supertypeClass, hraw, ok_bind]
        by_cases htarget : parent = target
        · exact Or.inl ⟨by simp [htarget], by simp [htarget]⟩
        have hgo (queue' seen' : List ClassId) :=
          scanSupertypes_blocked checker current target rest queue' seen' hrest
        rw [if_neg htarget]
        split
        · exact (hgo queue seen).imp (And.imp_left (List.mem_cons_of_mem _))
            fun ⟨edge', hmem, herror⟩ => ⟨edge', List.mem_cons_of_mem _ hmem, herror⟩
        · exact (hgo _ _).imp (And.imp_left (List.mem_cons_of_mem _))
            fun ⟨edge', hmem, herror⟩ => ⟨edge', List.mem_cons_of_mem _ hmem, herror⟩

/-! ## The whole search -/

/-- What has been seen can be reached, and what is no longer in line can be traversed and has all
its parents seen. -/
structure Explored (store : Store) (source : ClassId) (queue seen : List ClassId) : Prop where
  mem_seen : ∀ id ∈ queue, id ∈ seen
  nodup : seen.Nodup
  source_seen : source ∈ seen
  reached : ∀ id ∈ seen, ReflTransGen store.Extends source id
  passed : ∀ id ∈ seen, id ∉ queue →
    store.Traversable id ∧ ∀ parent, store.Extends id parent → parent ∈ seen

namespace Explored

variable {store : Store} {source : ClassId} {queue seen : List ClassId}

/-- The classes that are seen and no longer in line are no more than the store holds. -/
lemma length_le (h : Explored store source queue seen) :
    seen.length ≤ store.size + queue.length := by
  have hsplit : seen ⊆ seen.filter (· ∉ queue) ++ queue := by
    intro id hid
    by_cases hq : id ∈ queue <;> simp [hid, hq]
  have hpassed : (seen.filter (· ∉ queue)).length ≤ store.size := by
    refine Store.length_le_size (h.nodup.filter _) fun id hid => ?_
    obtain ⟨hseen, hq⟩ := List.mem_filter.mp hid
    obtain ⟨decl, hdecl, -⟩ := (h.passed id hseen (by simpa using hq)).1
    exact ⟨decl, hdecl⟩
  have hlength := (List.subperm_of_subset h.nodup hsplit).length_le
  rw [List.length_append] at hlength
  omega

/-- When no class is left in line, everything that can be reached has been seen. -/
lemma seen_of_path (h : Explored store source [] seen) {id : ClassId}
    (hpath : ReflTransGen store.Extends source id) : id ∈ seen := by
  induction hpath with
  | refl => exact h.source_seen
  | tail _ hstep ih => exact (h.passed _ ih (by simp)).2 _ hstep

/-- Scanning the first class in line keeps the invariant. -/
lemma scanned {current : ClassId} {decl : ClassDecl} {queue' seen' : List ClassId}
    (h : Explored store source (current :: queue) seen) (hdecl : store.class? current = some decl)
    (hedges : ∀ edge ∈ decl.edges.supertypes, ∃ parent, edge.rawClass? = some parent)
    (hscan : Scanned (edgeClasses decl.edges.supertypes) queue seen queue' seen') :
    Explored store source queue' seen' where
  mem_seen id hid := by
    rw [hscan.mem_seen]
    rcases (hscan.mem_queue id).mp hid with hq | ⟨hparent, -⟩
    · exact Or.inl (h.mem_seen id (List.mem_cons_of_mem _ hq))
    · exact Or.inr hparent
  nodup := hscan.nodup h.nodup
  source_seen := (hscan.mem_seen source).mpr (Or.inl h.source_seen)
  reached id hid := by
    rcases (hscan.mem_seen id).mp hid with hseen | hparent
    · exact h.reached id hseen
    · exact (h.reached current (h.mem_seen current (by simp))).tail
        ((mem_edgeClasses hdecl).mp hparent)
  passed id hid hq := by
    have hold : id ∈ seen := by
      rcases (hscan.mem_seen id).mp hid with hseen | hparent
      · exact hseen
      · by_contra hnew
        exact hq ((hscan.mem_queue id).mpr (Or.inr ⟨hparent, hnew⟩))
    by_cases hcurrent : id = current
    · subst hcurrent
      exact ⟨⟨decl, hdecl, hedges⟩, fun parent hstep =>
        (hscan.mem_seen parent).mpr (Or.inr ((mem_edgeClasses hdecl).mpr hstep))⟩
    · have hline : id ∉ current :: queue := by
        rw [List.mem_cons, not_or]
        exact ⟨hcurrent, fun hmem => hq ((hscan.mem_queue id).mpr (Or.inl hmem))⟩
      obtain ⟨htraversable, hparents⟩ := h.passed id hold hline
      exact ⟨htraversable, fun parent hstep =>
        (hscan.mem_seen parent).mpr (Or.inl (hparents parent hstep))⟩

end Explored

/-- **The search finds the answer on every store**, cyclic or not, faulty or not.  It does not run
out of steps, if there is one for every known class and one for a class that is not: with that many
steps, and with more, it comes to one and the same result. -/
theorem found_reaches (source target : ClassId) :
    ∀ (steps : Nat) (queue seen : List ClassId), Explored checker.store source queue seen →
      target ∉ seen → checker.store.size + queue.length < steps + seen.length →
      ∃ result, checker.store.Found source target result ∧
        ∀ more, checker.answer (checker.reaches target (steps + more) queue seen) =
          result.map some
  | 0, queue, seen, hex, _, hsteps => by
    have := hex.length_le
    omega
  | steps + 1, [], seen, hex, htarget, _ => by
    refine ⟨.ok false, ⟨fun hpath => htarget (hex.seen_of_path hpath), fun id hpath => ?_⟩,
      fun more => ?_⟩
    · exact (hex.passed id (hex.seen_of_path hpath) (by simp)).1
    · rw [Nat.add_right_comm, reaches]
      rfl
  | steps + 1, current :: queue, seen, hex, htarget, hsteps => by
    have hcurrent := hex.reached current (hex.mem_seen current (by simp))
    simp only [Nat.add_right_comm steps 1, reaches, answer_bind, answer_edgesOf]
    cases hdecl : checker.store.class? current with
    | none =>
        have hunknown : checker.edgesFromStore current = .error (.unknownClass current) := by
          simp [edgesFromStore, Store.knownClass, hdecl, Except.map]
        rw [hunknown]
        exact ⟨.error _, ⟨current, hcurrent, .unknown hdecl⟩, fun _ => rfl⟩
    | some decl =>
        simp only [checker.edgesFromStore_of_class hdecl, ok_bind, answer_lift]
        by_cases hedges : ∀ edge ∈ decl.edges.supertypes, ∃ parent, edge.rawClass? = some parent
        · rcases scanSupertypes_cases checker current target _ queue seen hedges with
            ⟨hmem, hrun⟩ | ⟨hmem, queue', seen', hrun, hscan⟩
          · simp only [hrun, ok_bind, answer_pure]
            exact ⟨.ok true, hcurrent.tail ((mem_edgeClasses hdecl).mp hmem), fun _ => rfl⟩
          · have htarget' : target ∉ seen' := by
              rw [hscan.mem_seen, not_or]
              exact ⟨htarget, hmem⟩
            have hlength := hscan.length
            simp only [hrun, ok_bind]
            exact found_reaches source target steps queue' seen'
              (hex.scanned hdecl hedges hscan) htarget'
              (by simp only [List.length_cons] at hsteps; omega)
        · have hblocked : ∃ edge ∈ decl.edges.supertypes, edge.rawClass? = none := by
            simpa [Option.eq_none_iff_forall_ne_some] using hedges
          rcases scanSupertypes_blocked checker current target _ queue seen hblocked with
            ⟨hmem, hrun⟩ | ⟨edge, hedge, hraw, hrun⟩
          · simp only [hrun, ok_bind, answer_pure]
            exact ⟨.ok true, hcurrent.tail ((mem_edgeClasses hdecl).mp hmem), fun _ => rfl⟩
          · simp only [hrun, error_bind]
            exact ⟨.error _, ⟨current, hcurrent, .supertype hdecl hedge hraw⟩, fun _ => rfl⟩

/-- The search for a class starts with nothing but its source seen. -/
lemma explored_source (store : Store) (source : ClassId) :
    Explored store source [source] [source] := by
  constructor <;> simp [ReflTransGen.refl]

/-- Short of `Object`, `leadsTo` finds whether edges lead to a class, and it is the search with any
number of steps that exceeds the number of classes. -/
lemma found_leadsTo_of_ne (checker : Checker) {source target : ClassId} (hself : source ≠ target)
    (htarget : target ≠ checker.store.wellKnown.object) :
    checker.store.Found source target (checker.answer (checker.leadsTo source target)) ∧
      ∀ steps, checker.store.size < steps →
        checker.answer (checker.reaches target steps [source] [source]) =
          (checker.answer (checker.leadsTo source target)).map some := by
  obtain ⟨result, hfound, hresult⟩ := found_reaches source target (checker.store.size + 1) [source]
    [source] (explored_source checker.store source) (by simpa using hself.symm) (by simp)
  have hstart : checker.answer
      (checker.reaches target (checker.store.size + 1) [source] [source]) = result.map some :=
    hresult 0
  have hleads : checker.answer (checker.leadsTo source target) = result := by
    rw [leadsTo, if_neg hself, if_neg htarget, answer_map, hstart]
    cases result <;> rfl
  rw [hleads]
  refine ⟨hfound, fun steps hsteps => ?_⟩
  obtain ⟨more, rfl⟩ := Nat.exists_eq_add_of_le (Nat.succ_le_of_lt hsteps)
  exact hresult more

/-- Short of `Object`, `leadsTo` finds whether edges lead to a class. -/
lemma found_leadsTo (checker : Checker) (source : ClassId) {target : ClassId}
    (htarget : target ≠ checker.store.wellKnown.object) :
    checker.store.Found source target (checker.answer (checker.leadsTo source target)) := by
  by_cases hself : source = target
  · rw [leadsTo, if_pos hself]
    exact hself ▸ ReflTransGen.refl
  · exact (found_leadsTo_of_ne checker hself htarget).1

/-- **The search answers for every class of a nominal store, and its answer is `Store.Below`.** -/
theorem answer_leadsTo (hnom : checker.store.Nominal) {id : ClassId} (hid : checker.store.Knows id)
    (hprim : checker.isPrimitive id = false) (target : ClassId) :
    ∃ b, checker.answer (checker.leadsTo id target) = .ok b ∧
      (b = true ↔ checker.store.Below id target) := by
  by_cases hobject : target = checker.store.wellKnown.object
  · exact ⟨true, by simp [leadsTo, hobject, hprim], by simp [Store.Below, hobject]⟩
  obtain ⟨b, hb, hiff⟩ := (found_leadsTo checker _ hobject).of_nominal hnom hid
  refine ⟨b, hb, hiff.trans ?_⟩
  rw [Store.Below, reflTransGen_iff_eq_or_transGen, eq_comm]
  simp [hobject]

/-- Among classes that are no primitives, conversion is the relation of subclasses. -/
theorem answer_classConverts (hnom : checker.store.Nominal) {id target : ClassId}
    (hid : checker.store.Knows id) (hprim : checker.isPrimitive id = false)
    (htarget : checker.isPrimitive target = false) :
    ∃ b, checker.answer (checker.classConverts id target) = .ok b ∧
      (b = true ↔ checker.store.Below id target) := by
  by_cases hself : id = target
  · exact ⟨true, by simp [classConverts, hself], by simp [hself, Store.Below]⟩
  have hid' : checker.store.wellKnown.primitive? id = none := by
    simpa [isPrimitive, WellKnown.isPrimitive] using hprim
  have htarget' : checker.store.wellKnown.primitive? target = none := by
    simpa [isPrimitive, WellKnown.isPrimitive] using htarget
  simpa [classConverts, hself, hid', htarget'] using answer_leadsTo hnom hid hprim target

end Checker

end JavaGenerics
