import JavaGenerics.Proofs.NextParent
import JavaGenerics.Proofs.VocabularyCheck

/-!
# What can go wrong

An error is meant to say that a declaration is malformed.  Where declarations and types are well
formed, then, a question about assignability should have an answer, unless a limit is met.

That is so but for two errors, which come from what a walk puts in for parameters and not from what
anyone wrote: a chain of variables may lead back to its start, and a wildcard may come to stand as a
component of an array.

* `Checker.exists_answer_classConverts`, `Checker.exists_answer_parentToward` — questions about
  classes always have an answer where supertypes are nominal.
* `Checker.ends_decisions` — **walking, assigning and containing go wrong for the reasons of
  `Vocabulary.Expects` only**, by induction on the fuel with one lemma for each rule.
* `Checker.assignable_error_causes` — the result.  In a closed vocabulary no chain comes back, and
  in a solid one no wildcard is misplaced.
* `Checker.selfPassing_cyclic` — outside of a closed vocabulary the first error does occur.
-/

namespace JavaGenerics

namespace Checker

variable {checker : Checker} {voc : Vocabulary}

/-! ## Questions about classes -/

section Classes

variable (checker : Checker) (hnom : checker.store.Nominal)

include hnom

/-- The search answers for every known class. -/
lemma exists_answer_leadsTo {id : ClassId} (hid : checker.store.Knows id) (target : ClassId) :
    ∃ b, checker.answer (checker.leadsTo id target) = .ok b := by
  by_cases hobject : target = checker.store.wellKnown.object
  · by_cases hself : id = target
    · exact ⟨true, by simp [leadsTo, hself]⟩
    · exact ⟨!checker.isPrimitive id, by rw [leadsTo, if_neg hself, if_pos hobject, answer_pure]⟩
  · obtain ⟨b, hb, -⟩ := (found_leadsTo checker _ hobject).of_nominal hnom hid
    exact ⟨b, hb⟩

variable (hboxes : ∀ p, checker.store.Knows (checker.store.wellKnown.boxes.get p))

include hboxes

/-- Whether one class converts to another is always answered. -/
lemma exists_answer_classConverts {id : ClassId} (hid : checker.store.Knows id)
    (target : ClassId) : ∃ b, checker.answer (checker.classConverts id target) = .ok b := by
  by_cases hself : id = target
  · exact ⟨true, by simp [classConverts, hself]⟩
  simp only [classConverts, hself, if_false]
  cases checker.store.wellKnown.primitive? id with
  | some p =>
      cases checker.store.wellKnown.primitive? target with
      | some q => exact ⟨_, rfl⟩
      | none => exact exists_answer_leadsTo checker hnom (hboxes p) target
  | none =>
      cases checker.store.wellKnown.primitive? target with
      | some q =>
          cases checker.store.wellKnown.unboxed? id with
          | some p => exact ⟨_, rfl⟩
          | none => exact ⟨_, rfl⟩
      | none => exact exists_answer_leadsTo checker hnom hid target

/-- The choice among interfaces is answered by one of them, or by the one chosen before. -/
lemma exists_answer_interfaceToward (id target : ClassId) :
    ∀ (edges : List Ty) (before : Option (Ty × ClassId)),
      (∀ edge ∈ edges, ∃ parent, edge.rawClass? = some parent ∧ checker.store.Knows parent) →
      (∀ edge old, before = some (edge, old) → checker.store.Knows old) →
      ∃ next, checker.answer (checker.interfaceToward id target edges before) = .ok next ∧
        ∀ edge, next = some edge → edge ∈ edges ∨ ∃ old, before = some (edge, old)
  | [], before, _, _ => by
    refine ⟨before.map Prod.fst, rfl, fun edge hedge => ?_⟩
    obtain ⟨⟨edge', old⟩, hold, rfl⟩ := Option.map_eq_some_iff.mp hedge
    exact Or.inr ⟨old, hold⟩
  | edge :: rest, before, hedges, hbefore => by
    obtain ⟨⟨parent, hraw, hparent⟩, hrest⟩ := List.forall_mem_cons.mp hedges
    -- Whichever edge is chosen from here on, it is one of the list or the one chosen before.
    have hgo : ∀ chosen : Option (Ty × ClassId),
        (∀ e old, chosen = some (e, old) → checker.store.Knows old) →
        (∀ e old, chosen = some (e, old) → e ∈ edge :: rest ∨ ∃ old, before = some (e, old)) →
        ∃ next, checker.answer (checker.interfaceToward id target rest chosen) = .ok next ∧
          ∀ e, next = some e → e ∈ edge :: rest ∨ ∃ old, before = some (e, old) := by
      intro chosen hknown hfrom
      obtain ⟨next, hnext, hmem⟩ := exists_answer_interfaceToward id target rest chosen hrest hknown
      refine ⟨next, hnext, fun e he => ?_⟩
      rcases hmem e he with h | ⟨old, hold⟩
      · exact Or.inl (List.mem_cons_of_mem _ h)
      · exact hfrom e old hold
    have hkeep := hgo before hbefore fun e old hold => Or.inr ⟨old, hold⟩
    have htake := hgo (some (edge, parent)) (by rintro _ _ ⟨⟩; exact hparent)
      (by rintro _ _ ⟨⟩; exact Or.inl (by simp))
    obtain ⟨leads, hleads⟩ := exists_answer_classConverts checker hnom hboxes hparent target
    simp only [interfaceToward, supertypeClass, hraw, answer_bind, answer_lift, ok_bind, hleads]
    cases leads with
    | false => simpa using hkeep
    | true =>
        rcases before with _ | ⟨oldEdge, old⟩
        · simpa using htake
        · obtain ⟨replaces, hreplaces⟩ := exists_answer_classConverts checker hnom hboxes
            (hbefore oldEdge old rfl) parent
          simp only [if_true, answer_bind, hreplaces, ok_bind]
          cases replaces with
          | true => simpa using htake
          | false => simpa using hkeep

/-- The next step toward a known class is answered by a declared supertype, if by any. -/
lemma exists_answer_parentToward {id target : ClassId} {decl : ClassDecl}
    (hdecl : checker.store.class? id = some decl) (htarget : checker.store.Knows target) :
    ∃ next, checker.answer (checker.parentToward id target) = .ok next ∧
      ∀ edge, next = some edge → edge ∈ decl.edges.supertypes := by
  obtain ⟨targetDecl, htargetDecl⟩ := htarget
  have hsuper : ∃ next, checker.superclassEdge id decl.edges = .ok next ∧
      ∀ edge, next = some edge → edge ∈ decl.edges.supertypes := by
    cases hsuperclass : decl.superclass with
    | none => exact ⟨none, by simp [superclassEdge, ClassDecl.edges, hsuperclass], by simp⟩
    | some edge =>
        have hmem : edge ∈ decl.edges.supertypes := Store.mem_supertypes.mpr (Or.inl hsuperclass)
        obtain ⟨parent, hraw, -⟩ := hnom id decl hdecl edge hmem
        refine ⟨some edge, ?_, by rintro _ ⟨⟩; exact hmem⟩
        simp [superclassEdge, ClassDecl.edges, hsuperclass, supertypeClass, hraw, Except.map]
  have hinterfaces : ∀ edge ∈ decl.interfaces, edge ∈ decl.edges.supertypes :=
    fun edge hedge => Store.mem_supertypes.mpr (Or.inr hedge)
  simp only [parentToward, answer_bind, answer_edgesOf, checker.edgesFromStore_of_class hdecl,
    checker.edgesFromStore_of_class htargetDecl, ok_bind, answer_ite]
  split
  · obtain ⟨next, hnext, hmem⟩ := exists_answer_interfaceToward checker hnom hboxes id target
      decl.interfaces none (fun edge hedge => hnom id decl hdecl edge (hinterfaces edge hedge))
      (by simp)
    have hedges : decl.edges.interfaces = decl.interfaces := rfl
    rw [hedges, hnext, ok_bind]
    cases next with
    | none => simpa using hsuper
    | some edge =>
        refine ⟨some edge, rfl, ?_⟩
        rintro _ ⟨⟩
        exact hinterfaces edge ((hmem edge rfl).resolve_right (by simp))
  · simpa using hsuper

end Classes

/-! ## What is asked one level down -/

/-- A walk that keeps the bindings it started with: the only one that drops them ends at a
primitive. -/
def KeepsBindings (checker : Checker) (subject : Ty) (target : ClassId) : Prop :=
  checker.isPrimitive target = false ∨ ∃ args owner, subject = .applied target args owner

/-- The bindings of a walk stay in the vocabulary. -/
def WalkedTo (checker : Checker) (voc : Vocabulary) (subject : Ty) (target : ClassId)
    (map : Bindings) (result : Option Bindings) : Prop :=
  ∀ bound, result = some bound → bound.Carries checker.store voc ∧
    (checker.KeepsBindings subject target → ∀ v, map.Binds v → bound.Binds v)

/-- A walk ends with bindings in the vocabulary, given that the variables are bound that are sure to
be replaced.  Only classes mention such variables. -/
def WalkEnds (checker : Checker) (voc : Vocabulary) (walk : WalkDown) : Prop :=
  ∀ (own : TypeVarId → Prop) (subject : Ty) (target : ClassId) (map : Bindings),
    checker.store.Written voc own subject →
    (subject.rawClass? = none → checker.store.Finished voc subject) → (∀ v, own v → map.Binds v) →
    map.Carries checker.store voc → checker.store.Knows target →
    Ends voc.Expects (checker.answer (walk subject target map))
      (checker.WalkedTo voc subject target map)

/-- Assignability of finished types is decided, and that to any class without arguments. -/
def AssignEnds (checker : Checker) (voc : Vocabulary) (assign : AssignDown) : Prop :=
  ∀ (source : Option Ty) (target : Ty), (∀ ty, source = some ty → checker.store.Finished voc ty) →
    checker.store.Finished voc target ∨ (∃ id, target = .cls id) →
    Ends voc.Expects (checker.answer (assign source target none)) fun _ => True

/-- Containment of finished types is decided. -/
def ContainEnds (checker : Checker) (voc : Vocabulary) (contain : ContainDown) : Prop :=
  ∀ (given : Ty) (upper lower : List Ty), checker.store.Finished voc given →
    checker.store.Finished voc (.wildcard upper lower) →
    Ends voc.Expects (checker.answer (contain given upper lower none)) fun _ => True

/-- A wildcard is the component of a finished array only in a vocabulary that is not solid. -/
lemma expects_wildcard {component : Ty} (h : checker.store.Finished voc (.array component))
    (hwildcard : component.isWildcard = true) {name : Option String} :
    voc.Expects (.wildcardComponent name) := by
  cases h with
  | array _ hsolid =>
      refine Or.inr (Or.inr ⟨fun hvoc => ?_, _, rfl⟩)
      rw [(hsolid hvoc).2] at hwildcard
      exact absurd hwildcard (by simp)

section Rules

variable (hwf : checker.store.WellFormed voc) {walk : WalkDown} {assign : AssignDown}
  {contain : ContainDown}

include hwf

lemma knows_box (p : Primitive) :
    checker.store.Knows (checker.store.wellKnown.boxes.get p) := by
  cases hwf.boxes p with
  | cls hid => exact hwf.known _ hid

lemma exists_classConverts {id : ClassId} (hid : voc.classes id) (target : ClassId) :
    ∃ b, checker.answer (checker.classConverts id target) = .ok b :=
  exists_answer_classConverts checker hwf.nominal (knows_box hwf) (hwf.known id hid) target

/-- The bounds of a variable are finished. -/
lemma ends_varBounds {v : TypeVarId} (hv : voc.vars v) :
    ∃ bounds, checker.varBounds v = .ok bounds ∧
      ∀ bound ∈ bounds, checker.store.Finished voc bound := by
  obtain ⟨param, hparam, hbounds⟩ := hwf.bounds v hv
  refine ⟨checker.store.boundsOrObject param.bounds,
    by simp [varBounds, Store.knownParam, hparam], ?_⟩
  rw [Store.boundsOrObject]
  split
  · simpa using hwf.object
  · exact hbounds

/-- The upper bounds of a wildcard are finished. -/
lemma finished_upperBounds {upper : List Ty}
    (h : ∀ bound ∈ upper, checker.store.Finished voc bound) :
    ∀ bound ∈ checker.upperBounds upper, checker.store.Finished voc bound := by
  rw [upperBounds, Store.boundsOrObject]
  split
  · simpa using hwf.object
  · exact h

/-! ## Rules of the walk -/

/-- A walk goes on with a declared supertype, for whose variables bindings are at hand. -/
lemma ends_walkParent (hwalk : checker.WalkEnds voc walk) (subject : Ty) {id target : ClassId}
    {map : Bindings} (hid : voc.classes id) (hmap : map.Carries checker.store voc)
    (hparams : voc.closed → checker.store.Flat id ∨ ∀ v ∈ checker.store.paramsOf id, map.Binds v)
    (htarget : checker.store.Knows target)
    (hkeeps : checker.KeepsBindings subject target → checker.isPrimitive target = false) :
    Ends voc.Expects (checker.answer (checker.walkParent walk id target map))
      (checker.WalkedTo voc subject target map) := by
  obtain ⟨decl, hdecl⟩ := hwf.known id hid
  obtain ⟨next, hnext, hmem⟩ :=
    exists_answer_parentToward checker hwf.nominal (knows_box hwf) hdecl htarget
  rw [walkParent, answer_bind, hnext, ok_bind]
  cases next with
  | none =>
      rintro _ ⟨⟩
      exact ⟨hmap, fun _ _ hv => hv⟩
  | some edge =>
      have hedge := hmem edge rfl
      have hwritten : checker.store.Written voc map.Binds edge := by
        by_cases hclosed : voc.closed
        · refine (hwf.supertypes id decl hid hdecl edge hedge).mono fun v hv hown => ?_
          rcases hparams hclosed with hflat | hbinds
          · rw [hflat decl hdecl edge hedge] at hv
            exact absurd hv (by simp)
          · exact hbinds v (by rwa [Store.paramsOf_eq hdecl])
        · exact (hwf.supertypes id decl hid hdecl edge hedge).of_open hclosed
      obtain ⟨parent, hraw, -⟩ := hwf.nominal id decl hdecl edge hedge
      refine (hwalk map.Binds edge target map hwritten (by simp [hraw]) (fun _ hv => hv) hmap
        htarget).imp ?_
      intro result hresult bound hbound
      exact (hresult bound hbound).imp_right fun h hk => h (Or.inl (hkeeps hk))

lemma ends_walkClass (hwalk : checker.WalkEnds voc walk) {id target : ClassId} {map : Bindings}
    (hsubject : checker.store.Written voc (fun _ => False) (.cls id))
    (hmap : map.Carries checker.store voc) (htarget : checker.store.Knows target) :
    Ends voc.Expects (checker.answer (checker.walkClass walk id target map))
      (checker.WalkedTo voc (.cls id) target map) := by
  have hkeeps : checker.KeepsBindings (.cls id) target → checker.isPrimitive target = false :=
    fun h => h.resolve_right (by simp)
  have hstop : checker.WalkedTo voc (.cls id) target map (some map) := by
    rintro _ ⟨⟩
    exact ⟨hmap, fun _ _ hv => hv⟩
  cases hsubject with
  | cls hid hflat =>
      obtain ⟨converts, hconverts⟩ := exists_classConverts hwf hid target
      simp only [walkClass, answer_bind, hconverts, ok_bind]
      cases converts with
      | false => simp [WalkedTo]
      | true =>
          simp only [if_true]
          cases checker.store.wellKnown.primitive? id with
          | some p =>
              dsimp only
              by_cases hprim : checker.isPrimitive target = true
              · rw [if_pos hprim]
                rintro _ ⟨⟩
                refine ⟨Bindings.carries_empty _ _, fun hk => ?_⟩
                rw [hkeeps hk] at hprim
                exact absurd hprim (by simp)
              · rw [if_neg hprim]
                split
                · exact hstop
                · cases hwf.boxes p with
                  | cls hbox hbflat =>
                      exact ends_walkParent hwf hwalk _ hbox hmap (fun h => Or.inl (hbflat h))
                        htarget hkeeps
          | none =>
              dsimp only
              split
              · exact hstop
              · exact ends_walkParent hwf hwalk _ hid hmap (fun h => Or.inl (hflat h)) htarget hkeeps

lemma ends_walkOwner (hwalk : checker.WalkEnds voc walk) {own : TypeVarId → Prop}
    {owner : Option Ty} {map : Bindings}
    (howner : ∀ outer, owner = some outer → checker.store.Written voc own outer)
    (hown : ∀ v, own v → map.Binds v) (hmap : map.Carries checker.store voc) :
    Ends voc.Expects (checker.answer (walkOwner walk owner map)) fun bound =>
      bound.Carries checker.store voc ∧ ∀ v, map.Binds v → bound.Binds v := by
  have hsame : map.Carries checker.store voc ∧ ∀ v, map.Binds v → map.Binds v :=
    ⟨hmap, fun _ hv => hv⟩
  rcases owner with _ | outer
  · exact hsame
  · cases outer with
    | applied raw args owner =>
        have houter := howner _ rfl
        have hraw : voc.classes raw := by
          cases houter with
          | applied hraw => exact hraw
        simp only [walkOwner, answer_bind, answer_pure]
        refine (hwalk own _ raw map houter (by simp [Ty.rawClass?]) hown hmap
          (hwf.known raw hraw)).bind ?_
        intro result hresult
        cases result with
        | none => exact hsame
        | some bound =>
            exact (hresult bound rfl).imp_right fun h => h (Or.inr ⟨args, owner, rfl⟩)
    | _ => exact hsame

lemma ends_walkApplied (hwalk : checker.WalkEnds voc walk) {own : TypeVarId → Prop} (fuel : Nat)
    {raw target : ClassId} {args : List Ty} {owner : Option Ty} {map : Bindings}
    (hsubject : checker.store.Written voc own (.applied raw args owner))
    (hown : ∀ v, own v → map.Binds v) (hmap : map.Carries checker.store voc)
    (htarget : checker.store.Knows target) :
    Ends voc.Expects (checker.answer (checker.walkApplied walk fuel raw args owner target map))
      (checker.WalkedTo voc (.applied raw args owner) target map) := by
  cases hsubject with
  | applied hraw hlength hargs howner =>
      obtain ⟨decl, hdecl⟩ := hwf.known raw hraw
      obtain ⟨converts, hconverts⟩ := exists_classConverts hwf hraw target
      have hparams : decl.edges.params = checker.store.paramsOf raw :=
        (Store.paramsOf_eq hdecl).symm
      simp only [walkApplied, answer_bind, hconverts, ok_bind]
      cases converts with
      | false => simp [WalkedTo]
      | true =>
          simp only [if_true, answer_bind]
          refine (ends_walkOwner hwf hwalk howner hown hmap).bind fun inherited hinherited => ?_
          simp only [answer_edgesOf, checker.edgesFromStore_of_class hdecl, ok_bind, hparams,
            hlength, ne_eq, not_true, if_false, answer_bind, answer_lift]
          refine (ends_bindArguments hinherited.1 (fun v hv => hinherited.2 v (hown v hv)) fuel
            _ args inherited hlength.symm (fun hclosed => hwf.foreign hclosed raw hraw) hargs
            hinherited.1 fun _ hv => hv).bind fun bound hbound => ?_
          have hgrown : ∀ v, map.Binds v → bound.Binds v :=
            fun v hv => hbound.2.1 v (hinherited.2 v hv)
          rw [answer_ite]
          split
          · rintro _ ⟨⟩
            exact ⟨hbound.1, fun _ => hgrown⟩
          · rename_i hne
            refine (ends_walkParent hwf hwalk (.applied raw args owner) hraw hbound.1
              (fun hclosed => Or.inr (hbound.2.2 hclosed)) htarget ?_).imp ?_
            · rintro (hprim | ⟨_, _, heq⟩)
              · exact hprim
              · exact absurd (Ty.applied.inj heq).1 hne
            · intro result hresult m hm
              exact (hresult m hm).imp_right fun h hk v hv => h hk v (hgrown v hv)

omit hwf in
lemma ends_walkBounds (hwalk : checker.WalkEnds voc walk) (hassign : checker.AssignEnds voc assign)
    (subject : Ty) {target : ClassId} {map : Bindings} (hmap : map.Carries checker.store voc)
    (htarget : checker.store.Knows target)
    (hkeeps : checker.KeepsBindings subject target → checker.isPrimitive target = false) :
    ∀ bounds : List Ty, (∀ bound ∈ bounds, checker.store.Finished voc bound) →
      Ends voc.Expects (checker.answer (walkBounds walk assign target map bounds))
        (checker.WalkedTo voc subject target map)
  | [], _ => by simp [walkBounds, WalkedTo]
  | bound :: rest, hbounds => by
    obtain ⟨hbound, hrest⟩ := List.forall_mem_cons.mp hbounds
    rw [walkBounds, answer_bind]
    refine (hassign (some bound) (.cls target) (by rintro _ ⟨⟩; exact hbound)
      (Or.inr ⟨target, rfl⟩)).bind fun fits _ => ?_
    cases fits with
    | false => exact ends_walkBounds hwalk hassign subject hmap htarget hkeeps rest hrest
    | true =>
        refine (hwalk _ bound target map hbound (fun _ => hbound) (fun _ hv => hv.elim) hmap
          htarget).imp ?_
        intro result hresult m hm
        exact (hresult m hm).imp_right fun h hk => h (Or.inl (hkeeps hk))

/-- **One step of the walk.** -/
lemma ends_walkStep (hwalk : checker.WalkEnds voc walk) (hassign : checker.AssignEnds voc assign)
    (fuel : Nat) : checker.WalkEnds voc (checker.walkStep walk assign fuel) := by
  intro own subject target map hsubject hfinished hown hmap htarget
  cases subject with
  | cls id => exact ends_walkClass hwf hwalk (hsubject.mono (by simp [Ty.vars])) hmap htarget
  | applied raw args owner =>
      exact ends_walkApplied hwf hwalk fuel hsubject hown hmap htarget
  | var v =>
      cases hfinished rfl with
      | var hv =>
          obtain ⟨bounds, hbounds, hmem⟩ := ends_varBounds hwf (hv.resolve_right fun h => h.2)
          simp only [walkStep, answer_bind, answer_lift, hbounds, ok_bind]
          exact ends_walkBounds hwalk hassign (.var v) hmap htarget
            (fun h => h.resolve_right (by simp)) bounds hmem
  | wildcard upper lower =>
      cases hfinished rfl with
      | wildcard hupper hlower =>
          exact ends_walkBounds hwalk hassign (.wildcard upper lower) hmap htarget
            (fun h => h.resolve_right (by simp)) _ (finished_upperBounds hwf hupper)
  | array component =>
      have harray := hfinished rfl
      rw [walkStep, answer_ite]
      split
      · rename_i hwildcard
        exact expects_wildcard harray hwildcard
      · rw [answer_bind]
        refine (hassign (some (.array component)) (.cls target) (by rintro _ ⟨⟩; exact harray)
          (Or.inr ⟨target, rfl⟩)).bind fun fits _ => ?_
        rw [answer_ite]
        split
        · rintro _ ⟨⟩
          exact ⟨hmap, fun _ _ hv => hv⟩
        · simp [WalkedTo]

/-! ## Rules of assignability -/

omit hwf in
lemma ends_anyBound (hassign : checker.AssignEnds voc assign) {target : Ty}
    (htarget : checker.store.Finished voc target ∨ ∃ id, target = .cls id) :
    ∀ bounds : List Ty, (∀ bound ∈ bounds, checker.store.Finished voc bound) →
      Ends voc.Expects (checker.answer (anyBound assign target none bounds)) fun _ => True
  | [], _ => trivial
  | bound :: rest, hbounds => by
    obtain ⟨hbound, hrest⟩ := List.forall_mem_cons.mp hbounds
    rw [anyBound, answer_bind]
    refine (hassign (some bound) target (by rintro _ ⟨⟩; exact hbound) htarget).bind
      fun fits _ => ?_
    cases fits with
    | true => trivial
    | false => exact ends_anyBound hassign htarget rest hrest

lemma ends_assignToClass (hassign : checker.AssignEnds voc assign) {source : Option Ty}
    (target : ClassId) (hsource : ∀ ty, source = some ty → checker.store.Finished voc ty) :
    Ends voc.Expects (checker.answer (checker.assignToClass assign source target))
      fun _ => True := by
  rcases source with _ | source
  · trivial
  · cases hsource source rfl with
    | cls hid =>
        obtain ⟨b, hb⟩ := exists_classConverts hwf hid target
        simp [assignToClass, hb]
    | applied hraw =>
        obtain ⟨b, hb⟩ := exists_classConverts hwf hraw target
        simp [assignToClass, hb]
    | var hv =>
        obtain ⟨bounds, hbounds, hmem⟩ := ends_varBounds hwf (hv.resolve_right fun h => h.2)
        simp only [assignToClass, answer_bind, answer_lift, hbounds, ok_bind]
        exact ends_anyBound hassign (Or.inr ⟨target, rfl⟩) bounds hmem
    | wildcard => trivial
    | array =>
        rw [assignToClass]
        split <;> trivial

/-- A variable that a finished type passes on is one of the vocabulary. -/
lemma ends_passesThrough (v : TypeVarId) {subject : Ty}
    (h : checker.store.Finished voc subject) :
    Ends voc.Expects (checker.answer (passesThrough v subject)) fun b => b = true → voc.vars v := by
  induction h with
  | @applied raw args owner hraw _ hargs howner _ _ ihowner =>
      obtain ⟨decl, hdecl⟩ := hwf.known raw hraw
      unfold passesThrough
      simp only [answer_bind, answer_edgesOf, checker.edgesFromStore_of_class hdecl, ok_bind,
        answer_ite]
      split
      · rename_i hany
        intro _
        obtain ⟨⟨param, arg⟩, hmem, hpair⟩ := List.any_eq_true.mp hany
        simp only [Bool.and_eq_true, beq_iff_eq] at hpair
        have harg := hargs arg (List.of_mem_zip hmem).2
        cases harg with
        | var hw =>
            rw [Ty.var?, Option.some.injEq] at hpair
            exact hpair.2 ▸ hw.resolve_right fun h => h.2
        | _ => simp [Ty.var?] at hpair
      · cases owner with
        | none => simp
        | some outer => exact ihowner outer rfl
  | _ => simp [passesThrough]

/-- An argument that is found is finished. -/
lemma ends_foundArgument (param : TypeVarId) {map : Bindings} {subject : Ty}
    (hmap : map.Carries checker.store voc) (hsubject : checker.store.Finished voc subject) :
    Ends voc.Expects (checker.answer (checker.foundArgument param map subject))
      fun found => ∀ ty, found = some ty → checker.store.Finished voc ty := by
  have hown (v : TypeVarId) : Ends voc.Expects
      (checker.answer (passesThrough v subject >>= fun b =>
        if b = true then pure (some (Ty.var v)) else pure none))
      fun found => ∀ ty, found = some ty → checker.store.Finished voc ty := by
    rw [answer_bind]
    refine (ends_passesThrough hwf v hsubject).bind fun b hb => ?_
    cases b with
    | true =>
        rintro _ ⟨⟩
        exact .var (Or.inl (hb rfl))
    | false => simp
  rw [foundArgument, answer_bind, answer_lift]
  refine (ends_follow hmap param).bind fun result hresult => ?_
  cases result with
  | unbound => exact hown param
  | ended ty =>
      rintro _ ⟨⟩
      exact hresult.1
  | loose last => exact hown last

lemma ends_argumentsFit (hcontain : checker.ContainEnds voc contain) {source target : Ty}
    {sourceMap targetMap : Bindings} (hsource : checker.store.Finished voc source)
    (htarget : checker.store.Finished voc target) (hsourceMap : sourceMap.Carries checker.store voc)
    (htargetMap : targetMap.Carries checker.store voc) : ∀ params : List TypeVarId,
    Ends voc.Expects (checker.answer
      (checker.argumentsFit contain source target sourceMap targetMap none params)) fun _ => True
  | [] => trivial
  | param :: rest => by
    have hrest := ends_argumentsFit hcontain hsource htarget hsourceMap htargetMap rest
    rw [argumentsFit, answer_bind]
    refine (ends_foundArgument hwf param htargetMap htarget).bind fun wanted hwanted => ?_
    cases wanted with
    | none => exact hrest
    | some wanted =>
        simp only [answer_bind]
        refine (ends_foundArgument hwf param hsourceMap hsource).bind fun given hgiven => ?_
        cases given with
        | none => exact hrest
        | some given =>
            rw [answer_ite]
            split
            · exact hrest
            · cases wanted with
              | wildcard upper lower =>
                  simp only [answer_bind]
                  refine (hcontain given upper lower (hgiven given rfl) (hwanted _ rfl)).bind
                    fun fits _ => ?_
                  cases fits with
                  | true => exact hrest
                  | false => trivial
              | _ => trivial

lemma ends_assignToApplied (hwalk : checker.WalkEnds voc walk)
    (hcontain : checker.ContainEnds voc contain) {source : Option Ty} {raw : ClassId}
    {args : List Ty} {owner : Option Ty}
    (hsource : ∀ ty, source = some ty → checker.store.Finished voc ty)
    (htarget : checker.store.Finished voc (.applied raw args owner)) :
    Ends voc.Expects (checker.answer (checker.assignToApplied walk contain source
      (.applied raw args owner) raw none)) fun _ => True := by
  have hraw : voc.classes raw := by
    cases htarget with
    | applied hraw => exact hraw
  obtain ⟨decl, hdecl⟩ := hwf.known raw hraw
  have hempty := Bindings.carries_empty checker.store voc
  have hwalked (ty : Ty) (hty : checker.store.Finished voc ty) := hwalk _ ty raw .empty hty
    (fun _ => hty) (fun _ hv => hv.elim) hempty ⟨decl, hdecl⟩
  rcases source with _ | source
  · trivial
  by_cases harray : source.isArray = true
  · cases source with
    | array component => trivial
    | _ => simp [Ty.isArray] at harray
  have hfinished := hsource source rfl
  rw [assignToApplied_eq walk contain (by simpa using harray), compareInstances, answer_bind]
  refine (hwalked source hfinished).bind fun sourceMap? hsourceMap => ?_
  cases sourceMap? with
  | none => trivial
  | some sourceMap =>
      simp only [answer_bind]
      refine (hwalked _ htarget).bind fun targetMap? htargetMap => ?_
      cases targetMap? with
      | none => trivial
      | some targetMap =>
          simp only [answer_bind, answer_edgesOf, checker.edgesFromStore_of_class hdecl, ok_bind]
          exact ends_argumentsFit hwf hcontain hfinished htarget (hsourceMap _ rfl).1
            (htargetMap _ rfl).1 _

omit hwf in
lemma ends_assignComponent (hassign : checker.AssignEnds voc assign) {given wanted : Ty}
    (hgiven : checker.store.Finished voc (.array given))
    (hwanted : checker.store.Finished voc (.array wanted)) :
    Ends voc.Expects (checker.answer (checker.assignComponent assign given wanted none))
      fun _ => True := by
  rw [assignComponent, answer_ite]
  split
  · exact expects_wildcard hgiven ‹_›
  · rw [answer_ite]
    split
    · exact expects_wildcard hwanted ‹_›
    · rw [answer_ite]
      split
      · trivial
      · cases hgiven with
        | array hgiven =>
            cases hwanted with
            | array hwanted =>
                exact hassign (some given) wanted (by rintro _ ⟨⟩; exact hgiven) (Or.inl hwanted)

lemma ends_assignToArray (hassign : checker.AssignEnds voc assign) {source : Option Ty}
    {component : Ty} (hsource : ∀ ty, source = some ty → checker.store.Finished voc ty)
    (htarget : checker.store.Finished voc (.array component)) :
    Ends voc.Expects (checker.answer (checker.assignToArray assign source component none))
      fun _ => True := by
  rcases source with _ | source
  · trivial
  · have hfinished := hsource source rfl
    cases source with
    | array given => exact ends_assignComponent hassign hfinished htarget
    | wildcard upper lower =>
        cases hfinished with
        | wildcard hupper =>
            exact ends_anyBound hassign (Or.inl htarget) _ (finished_upperBounds hwf hupper)
    | var v =>
        cases hfinished with
        | var hv =>
            obtain ⟨bounds, hbounds, hmem⟩ := ends_varBounds hwf (hv.resolve_right fun h => h.2)
            simp only [assignToArray, answer_bind, answer_lift, hbounds, ok_bind]
            exact ends_anyBound hassign (Or.inl htarget) bounds hmem
    | _ => trivial

lemma ends_assignToVar (hassign : checker.AssignEnds voc assign) {source : Option Ty}
    {target : TypeVarId} (hsource : ∀ ty, source = some ty → checker.store.Finished voc ty)
    (htarget : checker.store.Finished voc (.var target)) :
    Ends voc.Expects (checker.answer (checker.assignToVar assign source target none))
      fun _ => True := by
  rcases source with _ | source
  · trivial
  · cases hsource source rfl with
    | var hv =>
        obtain ⟨bounds, hbounds, hmem⟩ := ends_varBounds hwf (hv.resolve_right fun h => h.2)
        simp only [assignToVar, answer_bind, answer_lift, hbounds, ok_bind]
        refine (ends_anyBound hassign (Or.inl htarget) bounds hmem).bind fun bounded _ => ?_
        cases bounded <;> trivial
    | _ => trivial

/-- **One step of assignability.** -/
lemma ends_assignStep (hwalk : checker.WalkEnds voc walk) (hassign : checker.AssignEnds voc assign)
    (hcontain : checker.ContainEnds voc contain) :
    checker.AssignEnds voc (checker.assignStep walk assign contain) := by
  intro source target hsource htarget
  unfold assignStep
  rw [answer_ite]
  split
  · trivial
  · cases target with
    | cls id => exact ends_assignToClass hwf hassign id hsource
    | applied raw args owner =>
        exact ends_assignToApplied hwf hwalk hcontain hsource (htarget.resolve_right (by simp))
    | array component =>
        exact ends_assignToArray hwf hassign hsource (htarget.resolve_right (by simp))
    | wildcard upper lower => trivial
    | var v => exact ends_assignToVar hwf hassign hsource (htarget.resolve_right (by simp))

/-! ## Rules of containment -/

/-- A bound that may be absent is finished if it is there. -/
def FinishedBound (store : Store) (voc : Vocabulary) (bound : Option Ty) : Prop :=
  ∀ ty, bound = some ty → store.Finished voc ty

omit hwf in
lemma finished_lowerBounds {lower : List Ty}
    (h : ∀ bound ∈ lower, checker.store.Finished voc bound) :
    ∀ bound ∈ lowerBounds lower, FinishedBound checker.store voc bound := by
  rw [lowerBounds]
  split
  · simp [FinishedBound]
  · intro bound hbound ty hty
    obtain ⟨ty', hmem, rfl⟩ := List.mem_map.mp hbound
    exact Option.some.inj hty ▸ h ty' hmem

omit hwf in
lemma ends_allAssignTo (hassign : checker.AssignEnds voc assign) {target : Ty}
    (htarget : checker.store.Finished voc target) : ∀ sources : List Ty,
    (∀ source ∈ sources, checker.store.Finished voc source) →
    Ends voc.Expects (checker.answer (allAssignTo assign target none sources)) fun _ => True
  | [], _ => trivial
  | source :: rest, hsources => by
    obtain ⟨hsource, hrest⟩ := List.forall_mem_cons.mp hsources
    rw [allAssignTo, answer_bind]
    refine (hassign (some source) target (by rintro _ ⟨⟩; exact hsource) (Or.inl htarget)).bind
      fun fits _ => ?_
    cases fits with
    | true => exact ends_allAssignTo hassign htarget rest hrest
    | false => trivial

omit hwf in
lemma ends_withinUpper (hassign : checker.AssignEnds voc assign) {sources : List Ty}
    (hsources : ∀ source ∈ sources, checker.store.Finished voc source) : ∀ bounds : List Ty,
    (∀ bound ∈ bounds, checker.store.Finished voc bound) →
    Ends voc.Expects (checker.answer (checker.withinUpper assign sources none bounds))
      fun _ => True
  | [], _ => trivial
  | bound :: rest, hbounds => by
    obtain ⟨hbound, hrest⟩ := List.forall_mem_cons.mp hbounds
    simp only [withinUpper, answer_bind, answer_lift, instantiate_none, ok_bind]
    refine (ends_allAssignTo hassign hbound sources hsources).bind fun fits _ => ?_
    cases fits with
    | true => exact ends_withinUpper hassign hsources rest hrest
    | false => trivial

omit hwf in
lemma ends_assignToAllLower (hassign : checker.AssignEnds voc assign) {source : Option Ty}
    (hsource : FinishedBound checker.store voc source) : ∀ targets : List (Option Ty),
    (∀ target ∈ targets, FinishedBound checker.store voc target) →
    Ends voc.Expects (checker.answer (assignToAllLower assign source none targets)) fun _ => True
  | [], _ => trivial
  | target :: rest, htargets => by
    obtain ⟨htarget, hrest⟩ := List.forall_mem_cons.mp htargets
    have hlower : Ends voc.Expects (checker.answer (assignLower assign source target none))
        fun _ => True := by
      cases target with
      | none => trivial
      | some target => exact hassign source target hsource (Or.inl (htarget target rfl))
    rw [assignToAllLower, answer_bind]
    refine hlower.bind fun fits _ => ?_
    cases fits with
    | true => exact ends_assignToAllLower hassign hsource rest hrest
    | false => trivial

omit hwf in
lemma ends_withinLower (hassign : checker.AssignEnds voc assign) {targets : List (Option Ty)}
    (htargets : ∀ target ∈ targets, FinishedBound checker.store voc target) :
    ∀ bounds : List (Option Ty), (∀ bound ∈ bounds, FinishedBound checker.store voc bound) →
      Ends voc.Expects (checker.answer (checker.withinLower assign targets none bounds))
        fun _ => True
  | [], _ => trivial
  | bound :: rest, hbounds => by
    obtain ⟨hbound, hrest⟩ := List.forall_mem_cons.mp hbounds
    simp only [withinLower, answer_bind, answer_lift, instantiate?_none, ok_bind]
    refine (ends_assignToAllLower hassign hbound targets htargets).bind fun fits _ => ?_
    cases fits with
    | true => exact ends_withinLower hassign htargets rest hrest
    | false => trivial

/-- **One step of containment.** -/
lemma ends_containStep (hassign : checker.AssignEnds voc assign) :
    checker.ContainEnds voc (checker.containStep assign) := by
  intro given upper lower hgiven hwanted
  cases hwanted with
  | wildcard hupper hlower =>
      have hboth (above : List Ty) (below : List (Option Ty))
          (habove : ∀ bound ∈ above, checker.store.Finished voc bound)
          (hbelow : ∀ bound ∈ below, FinishedBound checker.store voc bound) :
          Ends voc.Expects (checker.answer (checker.compareBounds assign above below upper lower))
            fun _ => True := by
        rw [compareBounds, answer_bind]
        refine (ends_withinUpper hassign habove _ (finished_upperBounds hwf hupper)).bind
          fun within _ => ?_
        cases within with
        | true => exact ends_withinLower hassign hbelow _ (finished_lowerBounds hlower)
        | false => trivial
      by_cases hwildcard : given.isWildcard = true
      · cases hgiven with
        | wildcard hgivenUpper hgivenLower =>
            rw [containStep]
            rw [answer_ite]
            split
            · trivial
            · exact hboth _ _ (finished_upperBounds hwf hgivenUpper)
                (finished_lowerBounds hgivenLower)
        | _ => simp [Ty.isWildcard] at hwildcard
      · rw [containStep_plain assign (by simpa using hwildcard)]
        exact hboth _ _ (by simpa using hgiven) (by simpa [FinishedBound] using hgiven)

end Rules

/-! ## The recursion -/

/-- **Walking, assigning and containing go wrong for the expected reasons only.** -/
theorem ends_decisions (checker : Checker) (hwf : checker.store.WellFormed voc) : ∀ fuel : Nat,
    checker.WalkEnds voc (checker.walkWithin fuel) ∧
      checker.AssignEnds voc (checker.assignWithin fuel) ∧
      checker.ContainEnds voc (checker.containWithin fuel)
  | 0 => by
    have hstop : voc.Expects checker.tooDeep := Or.inl (.nested _)
    have hassign : checker.AssignEnds voc (checker.assignWithin 0) := fun _ _ _ _ => hstop
    refine ⟨fun _ _ _ _ _ _ _ _ _ => hstop, hassign, fun given upper lower => ?_⟩
    rw [containWithin_eq]
    exact ends_containStep hwf hassign given upper lower
  | fuel + 1 => by
    obtain ⟨hwalk, hassign, hcontain⟩ := ends_decisions checker hwf fuel
    exact ⟨ends_walkStep hwf hwalk hassign fuel, ends_assignStep hwf hwalk hassign hcontain,
      ends_containStep hwf hassign⟩

/-- **A question about assignability of well-formed types in a well-formed store is answered, or a
limit is met**, but for two errors: a chain of variables may come back to its start, unless the
vocabulary is closed, and a wildcard may come to be the component of an array, unless it is
solid.  The latter shows the wildcard, if its names get finished (`DeclError.Written`). -/
theorem assignable_error_causes {store : Store} {voc : Vocabulary} (hwf : store.WellFormed voc)
    {source target : Ty} (hsource : store.Finished voc source)
    (htarget : store.Finished voc target) (limits : Limits) :
    let checker : Checker := { store := store, limits := limits }
    (∃ b, checker.answer (checker.assignable (some source) target none) = .ok b) ∨
      ∃ e, checker.answer (checker.assignable (some source) target none) = .error e ∧
        (e.IsLimit ∨ (¬ voc.closed ∧ ∃ varName, e = .cyclicVariable varName) ∨
          (¬ voc.solid ∧ ∃ wildcard, e = .wildcardComponent wildcard)) := by
  intro checker
  have h := (ends_decisions checker hwf checker.fuel).2.1 (some source) target
    (by rintro _ ⟨⟩; exact hsource) (Or.inl htarget)
  rw [assignable]
  cases hresult : checker.answer (checker.assignWithin checker.fuel (some source) target none) with
  | ok b => exact Or.inl ⟨b, rfl⟩
  | error e =>
      rw [hresult] at h
      exact Or.inr ⟨e, rfl, h⟩

/-- Types of the collection classes without variables are compared without an error. -/
theorem arrayList_without_error :
    let checker : Checker := { store := .collections }
    let result := checker.answer (checker.assignable (some (.app ⟨29⟩ [.cls ⟨5⟩]))
      (.app ⟨24⟩ [.extending (.cls ⟨3⟩)]) none)
    (∃ b, result = .ok b) ∨ ∃ e, result = .error e ∧ e.IsLimit := by
  refine (assignable_error_causes Store.collections_closed
    (Store.finished_of_isWritten (by decide)) (Store.finished_of_isWritten (by decide)) {}).imp_right
    fun ⟨e, he, hcause⟩ => ⟨e, he, hcause.resolve_right ?_⟩
  simp [Store.vocabulary]

/-- An `ArrayList` of the parameter of `List`, compared with a `List` of the same: the walk binds
the parameter to itself.  Both types and all declarations are well formed, and no class is above
itself. -/
theorem selfPassing_cyclic :
    let checker : Checker := { store := .collections }
    let voc := Store.collections.vocabulary ((List.range 14).map TypeVarId.mk) false
    checker.answer (checker.assignable (some (.app ⟨29⟩ [.var ⟨3⟩])) (.app ⟨25⟩ [.var ⟨3⟩]) none) =
        .error (.cyclicVariable "E") ∧
      Store.collections.WellFormed voc ∧ Store.collections.Regular ∧
      Store.collections.Finished voc (.app ⟨29⟩ [.var ⟨3⟩]) ∧
      Store.collections.Finished voc (.app ⟨25⟩ [.var ⟨3⟩]) :=
  ⟨rfl, Store.collections_wellFormed, Store.collections_regular,
    Store.finished_of_isWritten (by decide), Store.finished_of_isWritten (by decide)⟩

end Checker

end JavaGenerics
