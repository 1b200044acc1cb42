import JavaGenerics.Proofs.RegularStore

/-!
# The next step toward a class

On its way to a target a walk asks, class by class, which declared supertype to follow
(`Checker.parentToward`).  The choice is greedy and never taken back, so a walk arrives only if each
choice leads on.

* `Store.nextToward` — the choice, as a property of the store: limits have no say in it
  (`Checker.answer_parentToward`).
* `Store.considering` — one step of the choice among interfaces, and `Store.Chosen` — what it comes
  to: an edge that leads to the target, and that no later one surpasses.
* `Layered.nextToward_cases` — **where kinds are respected, every choice made below the target is
  still below the target.**  Where there is no choice left, the target is `Object`, which need not
  be declared as anything's supertype.  `Walkable.nextToward_cases` adds that the choice can be
  followed.
-/

namespace JavaGenerics

open Relation

/-! ## Limits have no say -/

namespace Checker

variable {store : Store} (a b : Limits)

lemma scanSupertypes_limits (current target : ClassId) :
    ∀ (edges : List Ty) (queue seen : List ClassId),
      (Checker.mk store a).scanSupertypes current target edges queue seen =
        (Checker.mk store b).scanSupertypes current target edges queue seen
  | [], _, _ => rfl
  | edge :: rest, queue, seen => by
    simp only [scanSupertypes, supertypeClass, scanSupertypes_limits current target rest]

lemma reaches_limits (target : ClassId) : ∀ (steps : Nat) (queue seen : List ClassId),
    (Checker.mk store a).reaches target steps queue seen =
      (Checker.mk store b).reaches target steps queue seen
  | 0, _, _ => rfl
  | _ + 1, [], _ => rfl
  | steps + 1, current :: queue, seen => by
    simp only [reaches, scanSupertypes_limits a b, reaches_limits target steps]

lemma leadsTo_limits (id target : ClassId) :
    (Checker.mk store a).leadsTo id target = (Checker.mk store b).leadsTo id target := by
  simp only [leadsTo, isPrimitive, reaches_limits a b]

lemma classConverts_limits (id target : ClassId) :
    (Checker.mk store a).classConverts id target =
      (Checker.mk store b).classConverts id target := by
  simp only [classConverts, leadsTo_limits a b]

lemma interfaceToward_limits (id target : ClassId) :
    ∀ (edges : List Ty) (chosen : Option (Ty × ClassId)),
      (Checker.mk store a).interfaceToward id target edges chosen =
        (Checker.mk store b).interfaceToward id target edges chosen
  | [], _ => rfl
  | edge :: rest, chosen => by
    simp only [interfaceToward, supertypeClass, classConverts_limits a b,
      interfaceToward_limits id target rest]

lemma parentToward_limits (id target : ClassId) :
    (Checker.mk store a).parentToward id target = (Checker.mk store b).parentToward id target := by
  simp only [parentToward, interfaceToward_limits a b, superclassEdge, supertypeClass]

end Checker

namespace Store

/-- The declared supertype of `id` to follow toward `target`. -/
def nextToward (store : Store) (id target : ClassId) : Except DeclError (Option Ty) :=
  let checker : Checker := { store := store }
  checker.answer (checker.parentToward id target)

end Store

lemma Checker.answer_parentToward (checker : Checker) (id target : ClassId) :
    checker.answer (checker.parentToward id target) = checker.store.nextToward id target := by
  rw [Checker.parentToward_limits checker.limits {} id target]
  rfl

/-! ## What the choice among interfaces comes to -/

namespace Store

section Choice

variable (store : Store)

open Classical in
/-- What is chosen among interfaces after one more candidate: the candidate, if it is below the
target and whatever was chosen before is below it. -/
noncomputable def considering (target : ClassId) (candidate : Ty × ClassId)
    (before : Option (Ty × ClassId)) : Option (Ty × ClassId) :=
  if store.Below candidate.2 target ∧ ∀ old ∈ before, store.Below old.2 candidate.2 then
    some candidate
  else before

/-- A declared supertype beside its class, which is one of the store. -/
def Candidate (candidate : Ty × ClassId) : Prop :=
  candidate.1.rawClass? = some candidate.2 ∧ store.Reference candidate.2

/-- None of the edges that lead to the target leads to a class above `parent`. -/
def Unsurpassed (target parent : ClassId) (edges : List Ty) : Prop :=
  ∀ edge ∈ edges, ∀ other, edge.rawClass? = some other → store.Below other target →
    ¬ store.Below parent other

/-- The outcome of choosing among interfaces, given the one chosen before: an edge below the target
that nothing behind it surpasses, or none, if there is no edge below the target. -/
structure Chosen (target : ClassId) (edges : List Ty) (before : Option (Ty × ClassId))
    (outcome : Option Ty) : Prop where
  some : ∀ edge, outcome = .some edge → ∃ parent, edge.rawClass? = .some parent ∧
    store.Below parent target ∧
      (before = .some (edge, parent) ∧ store.Unsurpassed target parent edges ∨
        ∃ earlier later, edges = earlier ++ edge :: later ∧ store.Unsurpassed target parent later)
  none : outcome = .none → before = .none ∧
    ∀ edge ∈ edges, ∀ parent, edge.rawClass? = .some parent → ¬ store.Below parent target

end Choice

variable {store : Store}

lemma Candidate.considering {target : ClassId} {candidate : Ty × ClassId}
    {before : Option (Ty × ClassId)} (hcandidate : store.Candidate candidate)
    (hbefore : ∀ old ∈ before, store.Candidate old) :
    ∀ chosen ∈ store.considering target candidate before, store.Candidate chosen := by
  intro chosen hchosen
  rw [Store.considering] at hchosen
  split at hchosen
  · rw [Option.mem_some_iff] at hchosen
    exact hchosen ▸ hcandidate
  · exact hbefore chosen hchosen

namespace Chosen

variable {target parent : ClassId} {edge : Ty} {edges : List Ty} {before : Option (Ty × ClassId)}
  {outcome : Option Ty}

lemma mem (h : store.Chosen target edges before outcome) (edge : Ty)
    (hedge : outcome = .some edge) :
    edge ∈ edges ∨ ∃ old, before = .some (edge, old) := by
  obtain ⟨parent, -, -, ⟨hbefore, -⟩ | ⟨earlier, later, rfl, -⟩⟩ := h.some edge hedge
  · exact Or.inr ⟨parent, hbefore⟩
  · exact Or.inl (by simp)

/-- Where no edge is left to consider, what was chosen before is the outcome. -/
lemma nil (hbefore : ∀ chosen ∈ before, store.Candidate chosen ∧ store.Below chosen.2 target) :
    store.Chosen target [] before (before.map Prod.fst) where
  some edge hedge := by
    obtain ⟨⟨edge', parent⟩, hchosen, rfl⟩ := Option.map_eq_some_iff.mp hedge
    obtain ⟨hcandidate, hbelow⟩ := hbefore _ hchosen
    exact ⟨parent, hcandidate.1, hbelow, Or.inl ⟨hchosen, by simp [Unsurpassed]⟩⟩
  none hnone := ⟨Option.map_eq_none_iff.mp hnone, by simp⟩

/-- One more edge in front is considered before the others. -/
lemma cons (hraw : edge.rawClass? = .some parent)
    (h : store.Chosen target edges (store.considering target (edge, parent) before) outcome) :
    store.Chosen target (edge :: edges) before outcome := by
  by_cases htaken : store.Below parent target ∧ ∀ old ∈ before, store.Below old.2 parent
  · rw [considering, if_pos htaken] at h
    refine ⟨fun chosen hchosen => ?_, fun hnone => absurd (h.none hnone).1 (by simp)⟩
    obtain ⟨p, hp, hbelow, ⟨hsame, hlast⟩ | ⟨earlier, later, rfl, hlast⟩⟩ := h.some chosen hchosen
    · obtain ⟨rfl, rfl⟩ := Prod.mk.inj (Option.some.inj hsame)
      exact ⟨_, hp, hbelow, Or.inr ⟨[], edges, rfl, hlast⟩⟩
    · exact ⟨p, hp, hbelow, Or.inr ⟨edge :: earlier, later, rfl, hlast⟩⟩
  · rw [considering, if_neg htaken] at h
    refine ⟨fun chosen hchosen => ?_, fun hnone => ⟨(h.none hnone).1, ?_⟩⟩
    · obtain ⟨p, hp, hbelow, ⟨rfl, hlast⟩ | ⟨earlier, later, rfl, hlast⟩⟩ := h.some chosen hchosen
      · refine ⟨p, hp, hbelow, Or.inl ⟨rfl, List.forall_mem_cons.mpr ⟨?_, hlast⟩⟩⟩
        intro other hother hleads habove
        rw [hraw, Option.some.injEq] at hother
        exact htaken ⟨hother ▸ hleads, by simpa using hother ▸ habove⟩
      · exact ⟨p, hp, hbelow, Or.inr ⟨edge :: earlier, later, rfl, hlast⟩⟩
    · obtain ⟨rfl, hrest⟩ := h.none hnone
      refine List.forall_mem_cons.mpr ⟨fun p hp hleads => ?_, hrest⟩
      rw [hraw, Option.some.injEq] at hp
      exact htaken ⟨hp ▸ hleads, by simp⟩

end Chosen

end Store

namespace Checker

variable {checker : Checker}

/-- The program considers one candidate after the other. -/
lemma answer_interfaceToward_cons (hnom : checker.store.Nominal) {id target : ClassId}
    (htarget : checker.isPrimitive target = false) {candidate : Ty × ClassId}
    (hcandidate : checker.store.Candidate candidate) (rest : List Ty)
    {before : Option (Ty × ClassId)} (hbefore : ∀ old ∈ before, checker.store.Candidate old) :
    checker.answer (checker.interfaceToward id target (candidate.1 :: rest) before) =
      checker.answer (checker.interfaceToward id target rest
        (checker.store.considering target candidate before)) := by
  obtain ⟨hraw, hparent⟩ := hcandidate
  obtain ⟨leads, hleads, hiff⟩ := answer_classConverts hnom hparent.1 hparent.2 htarget
  simp only [interfaceToward, supertypeClass, hraw, answer_bind, answer_lift, ok_bind, hleads]
  cases leads with
  | false =>
      have hnot : ¬ checker.store.Below candidate.2 target := by simpa using hiff
      simp [Store.considering, hnot]
  | true =>
      have hbelow : checker.store.Below candidate.2 target := hiff.mp rfl
      cases before with
      | none => simp [Store.considering, hbelow]
      | some old =>
          obtain ⟨-, hold⟩ := hbefore old rfl
          obtain ⟨replaces, hreplaces, hiff'⟩ :=
            answer_classConverts hnom hold.1 hold.2 hparent.2
          cases replaces with
          | true => simp [Store.considering, hbelow, hreplaces, hiff'.mp rfl]
          | false =>
              have hnot : ¬ checker.store.Below old.2 candidate.2 := by simpa using hiff'
              simp [Store.considering, hreplaces, hnot]

/-- **The choice among interfaces** is an edge to a class below the target, if there is one, and one
that no later edge surpasses. -/
lemma answer_interfaceToward (checker : Checker) (hnom : checker.store.Nominal)
    (id target : ClassId) (htarget : checker.isPrimitive target = false) :
    ∀ (edges : List Ty) (before : Option (Ty × ClassId)),
      (∀ edge ∈ edges, ∃ parent, edge.rawClass? = some parent ∧ checker.store.Reference parent) →
      (∀ chosen ∈ before, checker.store.Candidate chosen ∧
        checker.store.Below chosen.2 target) →
      ∃ outcome, checker.answer (checker.interfaceToward id target edges before) = .ok outcome ∧
        checker.store.Chosen target edges before outcome
  | [], before, _, hbefore => ⟨before.map Prod.fst, rfl, .nil hbefore⟩
  | edge :: rest, before, hedges, hbefore => by
    obtain ⟨parent, hraw, hparent⟩ := hedges edge (by simp)
    have hcandidate : checker.store.Candidate (edge, parent) := ⟨hraw, hparent⟩
    have hconsidered : ∀ chosen ∈ checker.store.considering target (edge, parent) before,
        checker.store.Candidate chosen ∧ checker.store.Below chosen.2 target := by
      intro chosen hchosen
      refine ⟨hcandidate.considering (fun old hold => (hbefore old hold).1) chosen hchosen, ?_⟩
      rw [Store.considering] at hchosen
      split at hchosen
      · rename_i htaken
        rw [Option.mem_some_iff] at hchosen
        exact hchosen ▸ htaken.1
      · exact (hbefore chosen hchosen).2
    obtain ⟨outcome, hrun, hchosen⟩ := answer_interfaceToward checker hnom id target htarget rest _
      (fun e he => hedges e (by simp [he])) hconsidered
    refine ⟨outcome, ?_, hchosen.cons hraw⟩
    have hold := fun old hold => (hbefore old hold).1
    rw [answer_interfaceToward_cons hnom htarget hcandidate rest hold, hrun]

end Checker

/-! ## Every choice leads on -/

namespace Store

variable {store : Store}

lemma Kinded.knows_of_below (hkinds : store.Kinded) {id target : ClassId} (hid : store.Knows id)
    (h : store.Below id target) : store.Knows target := by
  rcases h with rfl | rfl | hpath
  · exact hid
  · exact hkinds.object_known
  · obtain ⟨last, -, hstep⟩ := TransGen.tail'_iff.mp hpath
    exact hkinds.nominal.knows_right hstep

/-- Whatever is below another class, and not just because that is `Object`, is so by its edges. -/
lemma Below.path {id target : ClassId} (h : store.Below id target) (hne : id ≠ target)
    (hobject : target ≠ store.wellKnown.object) : TransGen store.Extends id target := by
  rcases h with rfl | rfl | hpath
  · exact absurd rfl hne
  · exact absurd rfl hobject
  · exact hpath

lemma Below.reflTransGen {id target : ClassId} (h : store.Below id target)
    (hobject : target ≠ store.wellKnown.object) : ReflTransGen store.Extends id target := by
  by_cases hne : id = target
  · exact hne ▸ .refl
  · exact (h.path hne hobject).to_reflTransGen

/-- Where a class lies below a target because of its edges, one of its parents does. -/
lemma exists_parent_of_path {id target : ClassId} (h : TransGen store.Extends id target) :
    ∃ parent, store.Extends id parent ∧ store.Below parent target := by
  obtain ⟨parent, hstep, hrest⟩ := TransGen.head'_iff.mp h
  rcases hrest.cases_head with rfl | ⟨next, hnext, hrest⟩
  · exact ⟨parent, hstep, Or.inl rfl⟩
  · exact ⟨parent, hstep, Or.inr (Or.inr (TransGen.head' hnext hrest))⟩

/-- The edge toward a target that is left when no interface leads there is the superclass. -/
lemma superclass_of_path {id target parent : ClassId} {decl : ClassDecl}
    (hdecl : store.class? id = some decl)
    (hinterfaces : ∀ edge ∈ decl.interfaces, ∀ p, edge.rawClass? = some p → ¬ store.Below p target)
    (hstep : store.Extends id parent) (hbelow : store.Below parent target) :
    ∃ edge, decl.superclass = some edge ∧ edge.rawClass? = some parent := by
  obtain ⟨decl', hdecl', edge, hedge, hraw⟩ := hstep
  rw [hdecl, Option.some.injEq] at hdecl'
  subst hdecl'
  rcases mem_supertypes.mp hedge with hsuper | hinterface
  · exact ⟨edge, hsuper, hraw⟩
  · exact absurd hbelow (hinterfaces edge hinterface parent hraw)

/-- An interface is below nothing but interfaces, and `Object`. -/
lemma Layered.not_below_of_interface (hlayers : store.Layered) {parent target : ClassId}
    (hparent : store.kindOf? parent = some .interface)
    (htarget : store.kindOf? target ≠ some .interface)
    (hobject : target ≠ store.wellKnown.object) : ¬ store.Below parent target := by
  rintro (rfl | rfl | hpath)
  · exact htarget hparent
  · exact hobject rfl
  · exact htarget (hlayers.interface_of_path hpath hparent)

/-- A step toward a target leads along an edge to a class that is below the target. -/
structure LeadsOn (store : Store) (id target : ClassId) (edge : Ty) (parent : ClassId) : Prop where
  mem : ∃ decl, store.class? id = some decl ∧ edge ∈ decl.edges.supertypes
  raw : edge.rawClass? = some parent
  reference : store.Reference parent
  below : store.Below parent target

/-- Where no interface leads to the target, the superclass does. -/
lemma Layered.superclass_cases (hlayers : store.Layered) {id target : ClassId} {decl : ClassDecl}
    (hdecl : store.class? id = some decl) (hne : id ≠ target) (hbelow : store.Below id target)
    (hinterfaces : target ≠ store.wellKnown.object →
      ∀ edge ∈ decl.interfaces, ∀ p, edge.rawClass? = some p → ¬ store.Below p target) :
    (decl.superclass = none ∧ target = store.wellKnown.object) ∨
    ∃ edge parent, store.LeadsOn id target edge parent ∧ decl.superclass = some edge := by
  cases hsuper : decl.superclass with
  | none =>
      refine Or.inl ⟨rfl, ?_⟩
      by_contra hobject
      obtain ⟨parent, hstep, hparent⟩ := exists_parent_of_path (hbelow.path hne hobject)
      obtain ⟨edge, hedge, -⟩ := superclass_of_path hdecl (hinterfaces hobject) hstep hparent
      rw [hsuper] at hedge
      exact absurd hedge (by simp)
  | some edge =>
      have hedge : edge ∈ decl.edges.supertypes := mem_supertypes.mpr (Or.inl hsuper)
      obtain ⟨parent, hraw, hparent⟩ := hlayers.supertypes id decl hdecl edge hedge
      refine Or.inr ⟨edge, parent, ⟨⟨decl, hdecl, hedge⟩, hraw, hparent, ?_⟩, rfl⟩
      by_cases hobject : target = store.wellKnown.object
      · exact Or.inr (Or.inl hobject)
      · obtain ⟨parent', hstep, hbelow'⟩ := exists_parent_of_path (hbelow.path hne hobject)
        obtain ⟨edge', hedge', hraw'⟩ :=
          superclass_of_path hdecl (hinterfaces hobject) hstep hbelow'
        rw [hsuper, Option.some.injEq] at hedge'
        subst hedge'
        rw [hraw', Option.some.injEq] at hraw
        exact hraw ▸ hbelow'

/-- Among nominal supertypes the superclass can always be followed. -/
lemma Layered.superclassEdge_eq (hlayers : store.Layered) {id : ClassId} {decl : ClassDecl}
    (hdecl : store.class? id = some decl) (checker : Checker) :
    checker.superclassEdge id decl.edges = .ok decl.superclass := by
  cases hsuper : decl.superclass with
  | none => simp [Checker.superclassEdge, ClassDecl.edges, hsuper]
  | some edge =>
      obtain ⟨parent, hraw, -⟩ :=
        hlayers.supertypes id decl hdecl edge (mem_supertypes.mpr (Or.inl hsuper))
      simp [Checker.superclassEdge, ClassDecl.edges, hsuper, Checker.supertypeClass, hraw,
        Except.map]

/-- Toward a class the superclass is followed. -/
lemma Layered.nextToward_of_class (hlayers : store.Layered) {id target : ClassId} {decl : ClassDecl}
    (hdecl : store.class? id = some decl) (htarget : store.Knows target)
    (hkind : store.kindOf? target ≠ some .interface) :
    store.nextToward id target = .ok decl.superclass := by
  obtain ⟨targetDecl, htargetDecl⟩ := htarget
  let checker : Checker := { store := store }
  have hkind' : ¬ targetDecl.edges.kind = .interface := by
    simpa [kindOf?_eq htargetDecl, ClassDecl.edges] using hkind
  have hrun : store.nextToward id target = checker.answer (checker.parentToward id target) := rfl
  rw [hrun]
  simp only [Checker.parentToward, Checker.answer_bind, Checker.answer_edgesOf,
    checker.edgesFromStore_of_class hdecl, checker.edgesFromStore_of_class htargetDecl, ok_bind,
    Checker.answer_ite, if_neg hkind', Checker.answer_lift]
  exact hlayers.superclassEdge_eq hdecl checker

/-- Toward an interface the interface that is chosen is followed, or else the superclass. -/
lemma Layered.nextToward_of_interface (hlayers : store.Layered) {id target : ClassId}
    {decl : ClassDecl} (hdecl : store.class? id = some decl)
    (hkind : store.kindOf? target = some .interface) :
    let checker : Checker := { store := store }
    store.nextToward id target =
      checker.answer (checker.interfaceToward id target decl.interfaces none) >>= fun chosen =>
        .ok (chosen.or decl.superclass) := by
  intro checker
  obtain ⟨targetDecl, htargetDecl, hkind'⟩ := Option.map_eq_some_iff.mp hkind
  have hkind'' : targetDecl.edges.kind = .interface := hkind'
  have hinterfaces : decl.edges.interfaces = decl.interfaces := rfl
  have hrun : store.nextToward id target = checker.answer (checker.parentToward id target) := rfl
  rw [hrun]
  simp only [Checker.parentToward, Checker.answer_bind, Checker.answer_edgesOf,
    checker.edgesFromStore_of_class hdecl, checker.edgesFromStore_of_class htargetDecl, ok_bind,
    Checker.answer_ite, if_pos hkind'', hinterfaces]
  congr 1
  funext chosen
  cases chosen with
  | some edge => rfl
  | none => simpa using hlayers.superclassEdge_eq hdecl checker

/-- **Where kinds are respected, the next step toward a target stays below the target.**  There is
none only on the way to `Object`. -/
theorem Layered.nextToward_cases (hlayers : store.Layered) {id target : ClassId}
    (hid : store.Knows id) (htarget : store.Reference target) (hne : id ≠ target)
    (hbelow : store.Below id target) :
    (store.nextToward id target = .ok none ∧ target = store.wellKnown.object) ∨
    ∃ edge parent, store.LeadsOn id target edge parent ∧
      store.nextToward id target = .ok (some edge) := by
  obtain ⟨decl, hdecl⟩ := hid
  by_cases hkind : store.kindOf? target = some .interface
  · have hnominal : ∀ edge ∈ decl.interfaces,
        ∃ parent, edge.rawClass? = some parent ∧ store.Reference parent :=
      fun edge hedge => hlayers.supertypes id decl hdecl edge (mem_supertypes.mpr (Or.inr hedge))
    obtain ⟨outcome, hchoice, hchosen⟩ := Checker.answer_interfaceToward { store := store }
      hlayers.nominal id target htarget.2 decl.interfaces none hnominal (by simp)
    rw [hlayers.nextToward_of_interface hdecl hkind, hchoice, ok_bind]
    cases outcome with
    | none =>
        have hnone := (hchosen.none rfl).2
        simpa using hlayers.superclass_cases hdecl hne hbelow fun _ => hnone
    | some edge =>
        have hedge : edge ∈ decl.interfaces :=
          (hchosen.mem edge rfl).resolve_right (by simp)
        obtain ⟨parent, hraw, hbelow', -⟩ := hchosen.some edge rfl
        obtain ⟨parent', hraw', hparent⟩ := hnominal edge hedge
        rw [hraw, Option.some.injEq] at hraw'
        exact Or.inr ⟨edge, parent,
          ⟨⟨decl, hdecl, mem_supertypes.mpr (Or.inr hedge)⟩, hraw, hraw' ▸ hparent, hbelow'⟩, rfl⟩
  · have hinterfaces : target ≠ store.wellKnown.object →
        ∀ edge ∈ decl.interfaces, ∀ p, edge.rawClass? = some p → ¬ store.Below p target :=
      fun hobject edge hedge p hraw => hlayers.not_below_of_interface
        (hlayers.interfaces_kind id decl hdecl edge hedge p hraw) hkind hobject
    rw [hlayers.nextToward_of_class hdecl htarget.1 hkind]
    simpa using hlayers.superclass_cases hdecl hne hbelow hinterfaces

/-- Where `Object` is known too, the target need not be known beforehand. -/
theorem Kinded.nextToward_cases (hkinds : store.Kinded) {id target : ClassId}
    (hid : store.Knows id) (htarget : store.wellKnown.isPrimitive target = false)
    (hne : id ≠ target) (hbelow : store.Below id target) :
    (store.nextToward id target = .ok none ∧ target = store.wellKnown.object) ∨
    ∃ edge parent, store.LeadsOn id target edge parent ∧
      store.nextToward id target = .ok (some edge) :=
  hkinds.toLayered.nextToward_cases hid ⟨hkinds.knows_of_below hid hbelow, htarget⟩ hne hbelow

/-- **In a walkable store the next step toward a target fits the class it leads to.** -/
theorem Walkable.nextToward_cases (hwalk : store.Walkable) {id target : ClassId}
    (hid : store.Knows id) (htarget : store.wellKnown.isPrimitive target = false)
    (hne : id ≠ target) (hbelow : store.Below id target) :
    (store.nextToward id target = .ok none ∧ target = store.wellKnown.object) ∨
    ∃ decl edge parent, store.class? id = some decl ∧ edge ∈ decl.edges.supertypes ∧
      store.FitsClass edge parent ∧ store.Below parent target ∧
      store.nextToward id target = .ok (some edge) := by
  refine (hwalk.kinded.nextToward_cases hid htarget hne hbelow).imp_right ?_
  rintro ⟨edge, parent, hleads, hnext⟩
  obtain ⟨decl, hdecl, hedge⟩ := hleads.mem
  exact ⟨decl, edge, parent, hdecl, hedge, hwalk.fits hdecl hedge hleads.raw, hleads.below, hnext⟩

/-- What a step toward a target leads to. -/
lemma Walkable.of_nextToward (hwalk : store.Walkable) {id target : ClassId} {edge : Ty}
    (hid : store.Knows id) (htarget : store.wellKnown.isPrimitive target = false)
    (hne : id ≠ target) (hbelow : store.Below id target)
    (hnext : store.nextToward id target = .ok (some edge)) :
    ∃ decl parent, store.class? id = some decl ∧ edge ∈ decl.edges.supertypes ∧
      store.FitsClass edge parent ∧ store.Below parent target := by
  rcases hwalk.nextToward_cases hid htarget hne hbelow with
    ⟨hnone, -⟩ | ⟨decl, edge', parent, hdecl, hedge, hfits, hparent, hsome⟩
  · rw [hnone] at hnext
    exact absurd hnext (by simp)
  · rw [hsome] at hnext
    simp only [Except.ok.injEq, Option.some.injEq] at hnext
    exact ⟨decl, parent, hdecl, hnext ▸ hedge, hnext ▸ hfits, hparent⟩

/-- The same, where the class that the step leads to is known. -/
lemma Walkable.of_nextToward_raw (hwalk : store.Walkable) {id target parent : ClassId} {edge : Ty}
    (hid : store.Knows id) (htarget : store.wellKnown.isPrimitive target = false)
    (hne : id ≠ target) (hbelow : store.Below id target)
    (hnext : store.nextToward id target = .ok (some edge)) (hraw : edge.rawClass? = some parent) :
    ∃ decl, store.class? id = some decl ∧ edge ∈ decl.edges.supertypes ∧
      store.FitsClass edge parent ∧ store.Below parent target := by
  obtain ⟨decl, parent', hdecl, hedge, hfits, hparent⟩ :=
    hwalk.of_nextToward hid htarget hne hbelow hnext
  obtain rfl : parent = parent' := Option.some.inj (hraw.symm.trans hfits.1)
  exact ⟨decl, hdecl, hedge, hfits, hparent⟩

end Store

end JavaGenerics
