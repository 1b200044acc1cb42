import JavaGenerics.Proofs.EdgePaths
import JavaGenerics.Proofs.PlainTypes

/-!
# Arguments side by side

A class is seen along a path of edges with one list of arguments, and with another one.  How do the
arguments compare with which the classes further up are seen?

An edge may pass a parameter on as it is, or use it inside another type.  What is passed on compares
as it did before.  Inside another type nothing but equality is of use: `Comparable<Integer>` does
not fit where `Comparable<? extends Number>` is wanted.

* `Store.Buries` — a parameter that is used inside another type, by an edge of the class or by one
  further up that it has been passed on to.
* `Sees.transport` — **along every path, arguments stay equal or go on to compare as they did, and
  the latter only for parameters that are not buried.**
* `Store.Confluent` — all paths between two classes find the same arguments, and
  `Confluent.of_leads` — which is so where each class has one edge at most toward generic classes.
-/

namespace JavaGenerics

open Relation

namespace Store

variable {store : Store}

/-! ## Buried parameters -/

/-- A supertype uses the parameter of the class inside another type, directly or after the parameter
has been passed on to a class further up. -/
inductive Buries (store : Store) : ClassId → TypeVarId → Prop
  | inside {id : ClassId} {decl : ClassDecl} {edge arg : Ty} {v : TypeVarId}
      (hdecl : store.class? id = some decl) (hedge : edge ∈ decl.edges.supertypes)
      (harg : arg ∈ edge.args) (hinside : arg.var? = none) (hv : v ∈ arg.vars) : Buries store id v
  | onward {id parent : ClassId} {decl : ClassDecl} {edge : Ty} {v param : TypeVarId}
      (hdecl : store.class? id = some decl) (hedge : edge ∈ decl.edges.supertypes)
      (hraw : edge.rawClass? = some parent)
      (hpassed : store.assigning parent edge.args param = some (.var v))
      (h : Buries store parent param) : Buries store id v

/-- A class buries nothing whose supertypes take variables, or nothing that mentions any, and belong
to classes that bury nothing. -/
lemma not_buries_of_supertypes {id : ClassId} {decl : ClassDecl}
    (hdecl : store.class? id = some decl)
    (hargs : ∀ edge ∈ decl.edges.supertypes, ∀ arg ∈ edge.args, arg.var? = none → arg.Ground)
    (hparents : ∀ edge ∈ decl.edges.supertypes, ∀ parent, edge.rawClass? = some parent →
      ∀ param, ¬ store.Buries parent param) (v : TypeVarId) : ¬ store.Buries id v := by
  intro h
  cases h with
  | inside hdecl' hedge harg hinside hv =>
      rw [hdecl, Option.some.injEq] at hdecl'
      subst hdecl'
      rw [hargs _ hedge _ harg hinside] at hv
      cases hv
  | onward hdecl' hedge hraw _ h =>
      rw [hdecl, Option.some.injEq] at hdecl'
      subst hdecl'
      exact hparents _ hedge _ hraw _ h

/-- A class without supertypes buries nothing. -/
lemma not_buries_of_no_supertypes {id : ClassId} {decl : ClassDecl}
    (hdecl : store.class? id = some decl) (hnone : decl.edges.supertypes = []) (v : TypeVarId) :
    ¬ store.Buries id v :=
  not_buries_of_supertypes hdecl (by simp [hnone]) (by simp [hnone]) v

/-- Two lists of arguments for a class, compared parameter by parameter: they are equal there, or
else compare by `P`, and the class does not bury the parameter. -/
def SideBySide (store : Store) (P : Ty → Ty → Prop) (id : ClassId) (args args' : List Ty) : Prop :=
  ∀ v given wanted, store.assigning id args v = some given →
    store.assigning id args' v = some wanted →
    given = wanted ∨ P given wanted ∧ ¬ store.Buries id v

/-- One edge further up the arguments compare as before. -/
lemma SideBySide.edge (hwalk : store.Walkable) {P : Ty → Ty → Prop} {id parent : ClassId}
    {args args' : List Ty} (h : store.SideBySide P id args args')
    (hlength : args.length = (store.paramsOf id).length)
    (hlength' : args'.length = (store.paramsOf id).length) {decl : ClassDecl} {edge : Ty}
    (hdecl : store.class? id = some decl) (hedge : edge ∈ decl.edges.supertypes)
    (hraw : edge.rawClass? = some parent) :
    store.SideBySide P parent (edge.args.map (Ty.subst (store.assigning id args)))
      (edge.args.map (Ty.subst (store.assigning id args'))) := by
  intro param given wanted hgiven hwanted
  rw [assigning_map] at hgiven hwanted
  obtain ⟨arg, harg, rfl⟩ := Option.map_eq_some_iff.mp hgiven
  obtain ⟨arg', harg', rfl⟩ := Option.map_eq_some_iff.mp hwanted
  obtain rfl : arg = arg' := by rwa [harg, Option.some.injEq] at harg'
  have hmem := (mem_of_assigning harg).2
  have hassigned : ∀ v ∈ arg.vars, ∃ ty ty', store.assigning id args v = some ty ∧
      store.assigning id args' v = some ty' := by
    intro v hv
    have hvars := Ty.mem_varsAll.mpr ⟨arg, hmem, hv⟩
    obtain ⟨ty, hty, -⟩ := Sees.exists_assigning_edge hwalk hlength hdecl hedge hvars
    obtain ⟨ty', hty', -⟩ := Sees.exists_assigning_edge hwalk hlength' hdecl hedge hvars
    exact ⟨ty, ty', hty, hty'⟩
  cases hvar : arg.var? with
  | some v =>
      obtain rfl : arg = .var v := by
        cases arg <;> simp_all [Ty.var?]
      obtain ⟨ty, ty', hty, hty'⟩ := hassigned v (by simp [Ty.vars])
      rw [Ty.subst, Ty.subst, hty, hty', Option.getD_some, Option.getD_some]
      refine (h v ty ty' hty hty').imp_right fun hP => ⟨hP.1, fun hburied => hP.2 ?_⟩
      exact .onward hdecl hedge hraw harg hburied
  | none =>
      refine Or.inl (Ty.subst_congr arg fun v hv => ?_)
      obtain ⟨ty, ty', hty, hty'⟩ := hassigned v hv
      have hburied : store.Buries id v := .inside hdecl hedge hmem hvar hv
      rw [hty, hty', (h v ty ty' hty hty').resolve_right fun hP => hP.2 hburied]

/-- **Along a path of edges the arguments compare as at its start.** -/
theorem Sees.transport (hwalk : store.Walkable) {P : Ty → Ty → Prop} {id target : ClassId}
    {args args' found' : List Ty} (h : store.SideBySide P id args args')
    (hlength : args.length = (store.paramsOf id).length)
    (hlength' : args'.length = (store.paramsOf id).length)
    (hsees : store.Sees id args' target found') :
    ∃ found, store.Sees id args target found ∧ store.SideBySide P target found found' := by
  induction hsees with
  | self => exact ⟨args, .self, h⟩
  | step hbetween hdecl hedge hraw ih =>
      obtain ⟨found, hfound, hside⟩ := ih
      exact ⟨_, hfound.step hdecl hedge hraw, hside.edge hwalk (hfound.arity hwalk hlength)
        (hbetween.arity hwalk hlength') hdecl hedge hraw⟩

/-! ## Paths that agree -/

/-- Any two paths of edges from a class to the same class find the same arguments there. -/
def Confluent (store : Store) : Prop :=
  ∀ id args target found found', args.length = (store.paramsOf id).length →
    store.Sees id args target found → store.Sees id args target found' → found = found'

/-- A class that is seen from another one is that class, or is seen from one of its parents. -/
lemma Sees.cases_head {id target : ClassId} {args found : List Ty}
    (h : store.Sees id args target found) :
    (target = id ∧ found = args) ∨ ∃ decl edge parent, store.class? id = some decl ∧
      edge ∈ decl.edges.supertypes ∧ edge.rawClass? = some parent ∧
      store.Sees parent (edge.args.map (Ty.subst (store.assigning id args))) target found := by
  induction h with
  | self => exact Or.inl ⟨rfl, rfl⟩
  | step _ hdecl hedge hraw ih =>
      rcases ih with ⟨rfl, rfl⟩ | ⟨decl', edge', parent', hdecl', hedge', hraw', hrest⟩
      · exact Or.inr ⟨_, _, _, hdecl, hedge, hraw, .self⟩
      · exact Or.inr ⟨decl', edge', parent', hdecl', hedge', hraw', hrest.step hdecl hedge hraw⟩

/-- **Where each class has one edge at most toward generic classes, all paths agree.**  The listed
classes are those from which generic classes are reached. -/
theorem Confluent.of_leads (hwalk : store.Walkable) (leads : List ClassId)
    (hgeneric : ∀ id, store.paramsOf id ≠ [] → id ∈ leads)
    (hclosed : ∀ id parent, store.Extends id parent → parent ∈ leads → id ∈ leads)
    (hunique : ∀ id decl, store.class? id = some decl →
      ∀ edge ∈ decl.edges.supertypes, ∀ edge' ∈ decl.edges.supertypes,
      ∀ parent ∈ leads, ∀ parent' ∈ leads, edge.rawClass? = some parent →
      edge'.rawClass? = some parent' → edge = edge') : store.Confluent := by
  intro id args target found found' hlength h h'
  by_cases hnone : store.paramsOf target = []
  · have hfound := h.arity hwalk hlength
    have hfound' := h'.arity hwalk hlength
    rw [hnone, List.length_nil, List.length_eq_zero_iff] at hfound hfound'
    rw [hfound, hfound']
  have hleads : ∀ {child}, ReflTransGen store.Extends child target → child ∈ leads := by
    intro child hpath
    induction hpath using ReflTransGen.head_induction_on with
    | refl => exact hgeneric target hnone
    | head hstep _ ih => exact hclosed _ _ hstep ih
  -- The induction is on the height of the class: both paths take the one edge there is.
  induction hn : store.height id using Nat.strong_induction_on generalizing id args with
  | _ n ih =>
      subst hn
      have hself : ∀ {decl edge parent}, store.class? id = some decl →
          edge ∈ decl.edges.supertypes → edge.rawClass? = some parent →
          ReflTransGen store.Extends parent target → target ≠ id := by
        rintro decl edge parent hdecl hedge hraw hpath rfl
        exact hwalk.acyclic target (.head' (.of_mem edge hdecl hedge hraw) hpath)
      rcases h.cases_head with ⟨htarget, rfl⟩ | ⟨decl, edge, parent, hdecl, hedge, hraw, hrest⟩
      · rcases h'.cases_head with ⟨-, rfl⟩ | ⟨decl', edge', parent', hdecl', hedge', hraw', hrest'⟩
        · rfl
        · exact absurd htarget (hself hdecl' hedge' hraw' hrest'.path)
      · rcases h'.cases_head with
          ⟨htarget, -⟩ | ⟨decl', edge', parent', hdecl', hedge', hraw', hrest'⟩
        · exact absurd htarget (hself hdecl hedge hraw hrest.path)
        rw [hdecl, Option.some.injEq] at hdecl'
        subst hdecl'
        obtain rfl := hunique id decl hdecl edge hedge edge' hedge' parent (hleads hrest.path)
          parent' (hleads hrest'.path) hraw hraw'
        rw [hraw, Option.some.injEq] at hraw'
        subst hraw'
        have harity : (edge.args.map (Ty.subst (store.assigning id args))).length =
            (store.paramsOf parent).length := by
          rw [List.length_map]
          exact (hwalk.fits hdecl hedge hraw).2.2.2
        exact ih _ (hwalk.height_lt (.of_mem edge hdecl hedge hraw)) parent _ harity hrest hrest'
          rfl

/-- Whether each class has one edge at most toward the listed classes, which include all generic
ones and all classes with an edge toward one of them. -/
def leadsOnce (store : Store) (leads : List ClassId) : Bool :=
  store.classes.toList.zipIdx.all fun (decl, i) =>
    let toward := decl.edges.supertypes.filter fun edge => edge.rawClass?.any leads.contains
    (leads.contains ⟨i⟩ || (decl.params.isEmpty && toward.isEmpty)) && decide (toward.length ≤ 1)

theorem Confluent.of_leadsOnce (hwalk : store.Walkable) (leads : List ClassId)
    (h : store.leadsOnce leads = true) : store.Confluent := by
  have hat : ∀ id decl, store.class? id = some decl →
      let toward := decl.edges.supertypes.filter fun edge => edge.rawClass?.any leads.contains
      (id ∈ leads ∨ decl.params = [] ∧ toward = []) ∧ toward.length ≤ 1 := by
    intro id decl hdecl
    have hmem : (decl, id.index) ∈ store.classes.toList.zipIdx :=
      List.mem_zipIdx_iff_getElem?.mpr (by simpa [class?] using hdecl)
    simpa [leadsOnce] using List.all_eq_true.mp h _ hmem
  have htoward : ∀ {decl : ClassDecl} {edge : Ty} {parent : ClassId},
      edge ∈ decl.edges.supertypes → edge.rawClass? = some parent → parent ∈ leads →
      edge ∈ decl.edges.supertypes.filter fun edge => edge.rawClass?.any leads.contains := by
    intro decl edge parent hedge hraw hparent
    simp [hedge, hraw, hparent]
  refine .of_leads hwalk leads (fun id hgeneric => ?_) (fun id parent hstep hparent => ?_)
    fun id decl hdecl edge hedge edge' hedge' parent hparent parent' hparent' hraw hraw' => ?_
  · cases hdecl : store.class? id with
    | none => simp [paramsOf, hdecl] at hgeneric
    | some decl =>
        rw [paramsOf_eq hdecl] at hgeneric
        exact (hat id decl hdecl).1.resolve_right fun hnone => hgeneric hnone.1
  · obtain ⟨decl, hdecl, edge, hedge, hraw⟩ := hstep
    refine (hat id decl hdecl).1.resolve_right fun hnone => ?_
    have hmem := htoward hedge hraw hparent
    rw [hnone.2] at hmem
    exact absurd hmem (by simp)
  · have hmem := htoward hedge hraw hparent
    have hmem' := htoward hedge' hraw' hparent'
    have hlength := (hat id decl hdecl).2
    generalize decl.edges.supertypes.filter (fun edge => edge.rawClass?.any leads.contains) =
      toward at hmem hmem' hlength
    cases toward with
    | nil => simp at hmem
    | cons only rest =>
        obtain rfl : rest = [] := by simpa using hlength
        rw [List.mem_singleton.mp hmem, List.mem_singleton.mp hmem']

end Store

end JavaGenerics
