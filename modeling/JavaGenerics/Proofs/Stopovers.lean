import JavaGenerics.Proofs.Views

/-!
# Stopovers

A walk picks each step with its target in mind, so walking to a target and walking to a class on the
way there need not have anything in common.  They do: toward the stopover the same steps are picked.

* `KeepsUp.considering` — the choice among declared interfaces is a fold that replaces what was
  chosen before.  Run for the target and for a stopover side by side, **the two agree as soon as the
  first one holds an interface that leads to the stopover.**
* `Walkable.nextToward_stopover` — so each step that leads to the stopover is a step toward it.
* `Ascent.stopover` — a way to the target, cut at the stopover, is the way to the stopover and then
  the way from there.
* `Checker.answer_viewAs_stepwise` — **what a type is seen as does not depend on the stopovers that
  are made.**
-/

namespace JavaGenerics

open Relation

namespace Store

variable {store : Store}

/-- The declared supertype of `child` that is followed toward `target` is of the class `parent`. -/
def StepsToward (store : Store) (target child parent : ClassId) : Prop :=
  child ≠ target ∧
    ∃ edge, store.nextToward child target = .ok (some edge) ∧ edge.rawClass? = some parent

/-! ## The choice among interfaces -/

/-- The choice that is made toward a stopover keeps up with the one that is made toward the target:
there is none as long as there is none there, and it is the same once that leads to the stopover. -/
structure KeepsUp (store : Store) (middle : ClassId) (onward stopover : Option (Ty × ClassId)) :
    Prop where
  none : onward = none → stopover = none
  some : ∀ chosen, onward = some chosen → ReflTransGen store.Extends chosen.2 middle →
    stopover = some chosen

/-- What is below a stopover, and not just because that is `Object`, is below everything above. -/
lemma Below.trans_path {id middle target : ClassId} (h : store.Below id middle)
    (hobject : middle ≠ store.wellKnown.object) (hpath : TransGen store.Extends middle target) :
    store.Below id target := by
  rcases h with rfl | rfl | h
  · exact Or.inr (Or.inr hpath)
  · exact absurd rfl hobject
  · exact Or.inr (Or.inr (h.trans hpath))

/-- **Considering one more candidate on both sides, the choice keeps up.** -/
theorem KeepsUp.considering {middle target : ClassId} {onward stopover : Option (Ty × ClassId)}
    (h : store.KeepsUp middle onward stopover) (hobject : middle ≠ store.wellKnown.object)
    (hpath : TransGen store.Extends middle target) (candidate : Ty × ClassId) :
    store.KeepsUp middle (store.considering target candidate onward)
      (store.considering middle candidate stopover) := by
  by_cases htaken : store.Below candidate.2 target ∧
      ∀ old ∈ onward, store.Below old.2 candidate.2
  · have honward : store.considering target candidate onward = .some candidate := if_pos htaken
    rw [honward]
    refine ⟨fun hnone => absurd hnone (by simp), fun chosen hchosen hleads => ?_⟩
    obtain rfl : candidate = chosen := Option.some.inj hchosen
    refine if_pos ⟨.of_path hleads, fun old hold => ?_⟩
    cases onward with
    | none => simp [h.none rfl] at hold
    | some kept =>
        -- If what was kept so far leads to the candidate by edges, it was kept on both sides.
        have hsame : ReflTransGen store.Extends kept.2 candidate.2 → old = kept := by
          intro hkept
          rw [h.some kept rfl (hkept.trans hleads), Option.mem_some_iff] at hold
          exact hold.symm
        have hbelow := htaken.2 kept rfl
        rcases hbelow with heq | hcandidate | hkept
        · rw [hsame (heq ▸ .refl)]
          exact Or.inl heq
        · exact Or.inr (Or.inl hcandidate)
        · rw [hsame hkept.to_reflTransGen]
          exact Or.inr (Or.inr hkept)
  · have honward : store.considering target candidate onward = onward := if_neg htaken
    rw [honward]
    have hrefused : onward = stopover → store.considering middle candidate stopover = stopover := by
      intro hsame
      refine if_neg fun htaken' => htaken ⟨htaken'.1.trans_path hobject hpath, ?_⟩
      exact hsame ▸ htaken'.2
    refine ⟨fun hnone => ?_, fun chosen hchosen hleads => ?_⟩
    · rw [hrefused (hnone.trans (h.none hnone).symm), h.none hnone]
    · have hstopover := h.some chosen hchosen hleads
      rw [hrefused (hchosen.trans hstopover.symm), hstopover]

end Store

namespace Checker

variable {checker : Checker}

/-- Run side by side over the declared interfaces, the choice toward a stopover keeps up with the
choice toward the target. -/
lemma answer_interfaceToward_keepsUp (checker : Checker) (hnom : checker.store.Nominal)
    (id : ClassId) {middle target : ClassId} (hmiddle : checker.isPrimitive middle = false)
    (htarget : checker.isPrimitive target = false)
    (hobject : middle ≠ checker.store.wellKnown.object)
    (hpath : TransGen checker.store.Extends middle target) :
    ∀ (edges : List Ty) (onward stopover : Option (Ty × ClassId)),
      (∀ edge ∈ edges, ∃ parent, edge.rawClass? = some parent ∧ checker.store.Reference parent) →
      (∀ old ∈ onward, checker.store.Candidate old) →
      (∀ old ∈ stopover, checker.store.Candidate old) →
      checker.store.KeepsUp middle onward stopover →
      ∃ onward' stopover',
        checker.answer (checker.interfaceToward id target edges onward) =
          .ok (onward'.map Prod.fst) ∧
        checker.answer (checker.interfaceToward id middle edges stopover) =
          .ok (stopover'.map Prod.fst) ∧
        (∀ chosen ∈ onward', checker.store.Candidate chosen) ∧
        checker.store.KeepsUp middle onward' stopover'
  | [], onward, stopover, _, honward, _, hkeeps =>
    ⟨onward, stopover, rfl, rfl, honward, hkeeps⟩
  | edge :: rest, onward, stopover, hedges, honward, hstopover, hkeeps => by
    obtain ⟨parent, hraw, hparent⟩ := hedges edge (by simp)
    have hcandidate : checker.store.Candidate (edge, parent) := ⟨hraw, hparent⟩
    rw [answer_interfaceToward_cons hnom htarget hcandidate rest honward,
      answer_interfaceToward_cons hnom hmiddle hcandidate rest hstopover]
    exact answer_interfaceToward_keepsUp checker hnom id hmiddle htarget hobject hpath rest _ _
      (fun e he => hedges e (by simp [he])) (hcandidate.considering honward)
      (hcandidate.considering hstopover) (hkeeps.considering hobject hpath (edge, parent))

end Checker

namespace Store

variable {store : Store}

/-! ## One step -/

/-- **A step that leads to a stopover is a step toward it.** -/
theorem Walkable.nextToward_stopover (hwalk : store.Walkable) {id middle target parent : ClassId}
    {edge : Ty} (hid : store.Knows id) (hmiddle : store.Reference middle)
    (htarget : store.wellKnown.isPrimitive target = false)
    (happroach : store.Approachable middle) (hpath : TransGen store.Extends middle target)
    (hnext : store.nextToward id target = .ok (some edge)) (hraw : edge.rawClass? = some parent)
    (hleads : ReflTransGen store.Extends parent middle) :
    store.nextToward id middle = .ok (some edge) := by
  obtain ⟨decl, hdecl⟩ := hid
  have hnominal : ∀ edge ∈ decl.interfaces,
      ∃ parent, edge.rawClass? = some parent ∧ store.Reference parent :=
    fun edge hedge => hwalk.kinded.supertypes id decl hdecl edge (mem_supertypes.mpr (Or.inr hedge))
  let checker : Checker := { store := store }
  by_cases hkind : store.kindOf? middle = some .interface
  · have hobject : middle ≠ store.wellKnown.object := fun heq => happroach heq hkind
    obtain ⟨onward, stopover, honward, hstopover, hcandidate, hkeeps⟩ :=
      Checker.answer_interfaceToward_keepsUp checker hwalk.nominal id hmiddle.2 htarget hobject
        hpath decl.interfaces none none hnominal (by simp) (by simp) ⟨fun _ => rfl, by simp⟩
    rw [hwalk.kinded.nextToward_of_interface hdecl (hwalk.kinded.interface_of_path hpath hkind),
      honward, ok_bind] at hnext
    rw [hwalk.kinded.nextToward_of_interface hdecl hkind, hstopover, ok_bind]
    cases onward with
    | none => simpa [hkeeps.none rfl] using hnext
    | some chosen =>
        simp only [Option.map_some, Option.some_or, Except.ok.injEq, Option.some.injEq] at hnext
        have hparent := (hcandidate chosen rfl).1
        rw [hnext, hraw, Option.some.injEq] at hparent
        simp [hkeeps.some chosen rfl (hparent ▸ hleads), hnext]
  · -- A class that is no interface is above superclasses only, whatever the target is.
    rw [hwalk.kinded.nextToward_of_class hdecl hmiddle.1 hkind]
    by_cases hkind' : store.kindOf? target = some .interface
    · obtain ⟨outcome, houtcome, hchosen⟩ := Checker.answer_interfaceToward checker
        hwalk.nominal id target htarget decl.interfaces none hnominal (by simp)
      rw [hwalk.kinded.nextToward_of_interface hdecl hkind', houtcome, ok_bind] at hnext
      cases outcome with
      | none => simpa using hnext
      | some chosen =>
          simp only [Option.some_or, Except.ok.injEq, Option.some.injEq] at hnext
          subst hnext
          have hmem := (hchosen.mem chosen rfl).resolve_right (by simp)
          have hparent := hwalk.interfaces_kind id decl hdecl chosen hmem parent hraw
          rcases reflTransGen_iff_eq_or_transGen.mp hleads with rfl | hleads
          · exact absurd hparent hkind
          · exact absurd (hwalk.kinded.interface_of_path hleads hparent) hkind
    · obtain ⟨last, -, hlast⟩ := TransGen.tail'_iff.mp hpath
      rw [hwalk.kinded.nextToward_of_class hdecl (hwalk.nominal.knows_right hlast) hkind'] at hnext
      exact hnext

/-! ## The whole way -/

/-- A step toward a target leads to a class that is below the target. -/
lemma Walkable.of_stepsToward (hwalk : store.Walkable) {target child parent : ClassId}
    (htarget : store.wellKnown.isPrimitive target = false) (hchild : store.Knows child)
    (hbelow : store.Below child target) (h : store.StepsToward target child parent) :
    store.Extends child parent ∧ store.Reference parent ∧ store.Below parent target := by
  obtain ⟨hne, edge, hnext, hraw⟩ := h
  obtain ⟨decl, hdecl, hedge, hfits, hparent⟩ :=
    hwalk.of_nextToward_raw hchild htarget hne hbelow hnext hraw
  exact ⟨.of_mem edge hdecl hedge hraw, hfits.2.1, hparent⟩

/-- The classes on the way to a target are below the target. -/
lemma Walkable.of_way (hwalk : store.Walkable) {target id middle : ClassId}
    (htarget : store.wellKnown.isPrimitive target = false) (hid : store.Reference id)
    (hbelow : store.Below id target) (h : ReflTransGen (store.StepsToward target) id middle) :
    ReflTransGen store.Extends id middle ∧ store.Reference middle ∧ store.Below middle target := by
  induction h with
  | refl => exact ⟨.refl, hid, hbelow⟩
  | tail _ hstep ih =>
      obtain ⟨hpath, hmiddle, hbelow'⟩ := ih
      obtain ⟨hextends, hparent, hbelow''⟩ :=
        hwalk.of_stepsToward htarget hmiddle.1 hbelow' hstep
      exact ⟨hpath.tail hextends, hparent, hbelow''⟩

/-- Where edges lead to an approachable target, they do so from every class on the way. -/
lemma Walkable.path_of_way (hwalk : store.Walkable) {target id middle : ClassId}
    (htarget : store.wellKnown.isPrimitive target = false) (happroach : store.Approachable target)
    (hpath : ReflTransGen store.Extends id target)
    (h : ReflTransGen (store.StepsToward target) id middle) :
    ReflTransGen store.Extends middle target := by
  induction h with
  | refl => exact hpath
  | tail _ hstep ih =>
      obtain ⟨hne, edge, hnext, hraw⟩ := hstep
      obtain ⟨-, edge', parent, -, -, hraw', hrest, hnext'⟩ := hwalk.nextToward_of_path htarget
        happroach ((reflTransGen_iff_eq_or_transGen.mp ih).resolve_left (Ne.symm hne))
      rw [hnext] at hnext'
      simp only [Except.ok.injEq, Option.some.injEq] at hnext'
      subst hnext'
      rw [hraw, Option.some.injEq] at hraw'
      exact hraw' ▸ hrest

lemma Ascent.mem_start {target id : ClassId} {args : List Ty} {levels : List (ClassId × List Ty)}
    (h : store.Ascent target id args levels) : (id, args) ∈ levels := by
  cases h <;> simp

/-- **A way to a target, cut at a stopover**: from there on it is the way from the stopover to the
target, and up to there it is the way to the stopover. -/
theorem Ascent.stopover (hwalk : store.Walkable) {target id middle : ClassId}
    (htarget : store.wellKnown.isPrimitive target = false)
    (hway : ReflTransGen (store.StepsToward target) id middle) (hid : store.Reference id)
    (hbelow : store.Below id target) {args : List Ty} {levels : List (ClassId × List Ty)}
    (h : store.Ascent target id args levels) :
    ∃ found after, (middle, found) ∈ levels ∧ store.Ascent target middle found after ∧
      (∀ level ∈ after, level ∈ levels) ∧
      (store.Approachable middle → TransGen store.Extends middle target →
        ∃ before, store.Ascent middle id args before ∧ (middle, found) ∈ before) := by
  induction hway using ReflTransGen.head_induction_on generalizing args levels with
  | refl =>
      exact ⟨args, levels, h.mem_start, h, fun _ hlevel => hlevel,
        fun _ _ => ⟨_, .arrive args, by simp⟩⟩
  | @head id next hstep hrest ih =>
      obtain ⟨hextends, hnextRef, hnextBelow⟩ :=
        hwalk.of_stepsToward htarget hid.1 hbelow hstep
      obtain ⟨hpath, hmiddle, -⟩ := hwalk.of_way htarget hnextRef hnextBelow hrest
      obtain ⟨hne, edge, hnext, hraw⟩ := hstep
      cases h with
      | arrive => exact absurd rfl hne
      | stop _ hnone =>
          rw [hnext] at hnone
          exact absurd hnone (by simp)
      | step _ hnext' hraw' hlevels =>
          rw [hnext] at hnext'
          simp only [Except.ok.injEq, Option.some.injEq] at hnext'
          subst hnext'
          rw [hraw, Option.some.injEq] at hraw'
          subst hraw'
          obtain ⟨found, after, hmem, hafter, hsub, hbefore⟩ := ih hnextRef hnextBelow hlevels
          refine ⟨found, after, List.mem_cons_of_mem _ hmem, hafter,
            fun level hlevel => List.mem_cons_of_mem _ (hsub level hlevel),
            fun happroach hon => ?_⟩
          obtain ⟨before, hto, hmem'⟩ := hbefore happroach hon
          have hneMiddle : id ≠ middle := by
            rintro rfl
            exact hwalk.acyclic id (.head' hextends hpath)
          have hnextMiddle := hwalk.nextToward_stopover hid.1 hmiddle htarget happroach hon hnext
            hraw hpath
          exact ⟨_, .step hneMiddle hnextMiddle hraw hto, List.mem_cons_of_mem _ hmem'⟩

/-- **What is found at a stopover is that with which the way to the target passes it**, so the way
goes on from there as it does without stopping. -/
theorem Walkable.ascent_from_stopover (hwalk : store.Walkable) {target id middle : ClassId}
    (htarget : store.wellKnown.isPrimitive target = false) (hid : store.Reference id)
    (happroach : store.Approachable target) (hpath : ReflTransGen store.Extends id target)
    (hway : ReflTransGen (store.StepsToward target) id middle) {args : List Ty}
    (hlength : args.length = (store.paramsOf id).length) (hground : Ty.varsAll args = [])
    (hmiddle : store.Approachable middle ∨ store.paramsOf middle = [])
    {toMiddle levels : List (ClassId × List Ty)} (htoMiddle : store.Ascent middle id args toMiddle)
    (hlevels : store.Ascent target id args levels) :
    ∃ after, store.Ascent target middle (argsAt middle toMiddle) after ∧
      ∀ level ∈ after, level ∈ levels := by
  have hbelow := Below.of_path hpath
  obtain ⟨hpathMiddle, hmiddleRef, -⟩ := hwalk.of_way htarget hid hbelow hway
  obtain ⟨found, after, hmem, hafter, hsub, hbefore⟩ :=
    hlevels.stopover hwalk htarget hway hid hbelow
  have hsame : argsAt middle toMiddle = found := by
    by_cases hnone : store.paramsOf middle = []
    · have hfound : found.length = (store.paramsOf middle).length :=
        (hlevels.sees hwalk htarget hid.1 hbelow _ hmem).arity hwalk hlength
      have hargs := (hwalk.argsAt_instance htoMiddle hmiddleRef.2 hid.1 hmiddle hpathMiddle
        hlength hground).length
      rw [hnone, List.length_nil, List.length_eq_zero_iff] at hfound hargs
      rw [hargs, hfound]
    rcases reflTransGen_iff_eq_or_transGen.mp
      (hwalk.path_of_way htarget happroach hpath hway) with rfl | hon
    · rw [htoMiddle.unique hlevels]
      exact hlevels.argsAt_eq hwalk htarget hid.1 hbelow hmem
    · obtain ⟨before, hto, hmem'⟩ := hbefore (hmiddle.resolve_right hnone) hon
      rw [htoMiddle.unique hto]
      exact hto.argsAt_eq hwalk hmiddleRef.2 hid.1 (Below.of_path hpathMiddle) hmem'
  exact ⟨after, hsame ▸ hafter, hsub⟩

end Store

namespace Checker

/-- **What a ground type is seen as does not depend on stopovers.**  Let the subject be seen as an
instance of a class on its way to the target; that instance, and the subject itself, seen as
instances of the target, bind each parameter of the target to the same type.  Where `Object` is an
interface, it must not be target or stopover if it has parameters. -/
theorem answer_viewAs_stepwise (checker : Checker) (hwalk : checker.store.Walkable) {subject : Ty}
    {id middle target : ClassId} (hsubject : checker.store.FitsClass subject id)
    (hground : Ty.varsAll subject.args = []) (htarget : checker.isPrimitive target = false)
    (hpath : ReflTransGen checker.store.Extends id target)
    (hway : ReflTransGen (checker.store.StepsToward target) id middle)
    (happroach : checker.store.Approachable target ∨ checker.store.paramsOf target = [])
    (hmiddle : checker.store.Approachable middle ∨ checker.store.paramsOf middle = [])
    (hdepth : checker.store.viewDepth subject.args ≤ checker.limits.maxDepth) :
    ∃ view direct stepwise,
      checker.answer (checker.seenFrom subject middle (checker.store.generic middle)) = .ok view ∧
      checker.answer (checker.viewAs subject target .empty) = .ok (some direct) ∧
      checker.answer (checker.viewAs view target .empty) = .ok (some stepwise) ∧
      ∀ v ∈ checker.store.paramsOf target,
        ∃ ty, direct.get? v = some ty ∧ stepwise.get? v = some ty := by
  have hid := hsubject.2.1
  have hbelow := Store.Below.of_path hpath
  obtain ⟨hpathMiddle, hmiddleRef, hmiddleBelow⟩ := hwalk.of_way htarget hid hbelow hway
  obtain ⟨toMiddle, htoMiddle, -⟩ := hwalk.exists_ascent hmiddleRef.2 _ subject.args
    (Nat.lt_succ_self _) hid.1 (.of_path hpathMiddle)
  obtain ⟨levels, hlevels, -⟩ := hwalk.exists_ascent htarget _ subject.args
    (Nat.lt_succ_self _) hid.1 hbelow
  obtain ⟨after, hafter, -⟩ := hwalk.exists_ascent htarget _ (Store.argsAt middle toMiddle)
    (Nat.lt_succ_self _) hmiddleRef.1 hmiddleBelow
  have hinstance := hwalk.argsAt_instance htoMiddle hmiddleRef.2 hid.1 hmiddle hpathMiddle
    hsubject.2.2.2 hground
  have hlimit := hwalk.lt_viewDepth hid.1 (Nat.le_add_right (Ty.deepest subject.args) _)
  have hlimit' := hwalk.lt_viewDepth hid.1 hinstance.deepest
  refine ⟨_, _, _,
    checker.answer_seenFrom_generic hwalk hsubject hground hmiddleRef.2 hmiddle hpathMiddle
      htoMiddle hdepth,
    checker.answer_viewAs_of_ascent hwalk hsubject hground htarget hbelow hlevels
      (hlimit.le.trans hdepth),
    checker.answer_viewAs_of_ascent hwalk ⟨rfl, hmiddleRef, rfl, hinstance.length⟩
      hinstance.ground htarget hmiddleBelow hafter (hlimit'.le.trans hdepth), fun v hv => ?_⟩
  have happroach' : checker.store.Approachable target := by
    refine happroach.resolve_right fun hnone => ?_
    simp [hnone] at hv
  obtain ⟨after', hafter', hsub⟩ := hwalk.ascent_from_stopover htarget hid happroach' hpath hway
    hsubject.2.2.2 hground hmiddle htoMiddle hlevels
  obtain rfl := hafter'.unique hafter
  have hlevel := (hwalk.argsAt_sees hafter htarget hmiddleRef.1 happroach'
    (hwalk.path_of_way htarget happroach' hpath hway)).1
  have hsame := hlevels.argsAt_eq hwalk htarget hid.1 hbelow (hsub _ hlevel)
  have hlength := (hwalk.argsAt_instance hlevels htarget hid.1 happroach hpath
    hsubject.2.2.2 hground).length
  obtain ⟨ty, hty⟩ := Store.exists_assigning hlength hv
  refine ⟨ty, ?_, ?_⟩
  · rw [hlevels.get?_bindLevels_param hwalk htarget hid.1 hbelow hv, hty]
  · rw [hafter.get?_bindLevels_param hwalk htarget hmiddleRef.1 hmiddleBelow hv, ← hsame, hty]

/-- An `ArrayList<String>` on its way to `Collection` may stop at `List`. -/
theorem arrayList_viewAs_stepwise :
    let checker : Checker := { store := .collections }
    ∃ view direct stepwise,
      checker.answer (checker.seenFrom (.app ⟨29⟩ [.cls ⟨5⟩]) ⟨25⟩ (checker.store.generic ⟨25⟩)) =
        .ok view ∧
      checker.answer (checker.viewAs (.app ⟨29⟩ [.cls ⟨5⟩]) ⟨24⟩ .empty) = .ok (some direct) ∧
      checker.answer (checker.viewAs view ⟨24⟩ .empty) = .ok (some stepwise) ∧
      ∀ v ∈ checker.store.paramsOf ⟨24⟩,
        ∃ ty, direct.get? v = some ty ∧ stepwise.get? v = some ty := by
  intro checker
  have hlist : checker.store.Extends ⟨29⟩ ⟨25⟩ :=
    .of_mem (Store.Stock.passing 25 [7]) rfl (.tail _ (.head _)) rfl
  have hcollection : checker.store.Extends ⟨25⟩ ⟨24⟩ :=
    .of_mem (Store.Stock.passing 24 [3]) rfl (.head _) rfl
  have hstop : checker.store.StepsToward ⟨24⟩ ⟨29⟩ ⟨25⟩ := ⟨by decide, _, rfl, rfl⟩
  exact answer_viewAs_stepwise checker Store.collections_regular.toWalkable
    ⟨rfl, ⟨⟨_, rfl⟩, by decide⟩, rfl, rfl⟩ rfl (by decide) (.tail (.single hlist) hcollection)
    (.single hstop) (Or.inl fun h => absurd h (by decide)) (Or.inl fun h => absurd h (by decide))
    (by decide)

/-- On the way to `Comparable` over an interface `Object`, a class with another interface is not
seen as an `Object`: that one counts as leading to `Object` as well, and no step leads on from
there. -/
theorem interfaceTop_viewAs_stepwise :
    let store := Store.interfaceTop [.app ⟨4⟩ [.var ⟨1⟩]]
    let checker : Checker := { store := store }
    let subject := Ty.cls ⟨24⟩
    store.Walkable ∧
      (∀ decl, store.class? store.wellKnown.object = some decl → decl.superclass = none) ∧
      store.FitsClass subject ⟨24⟩ ∧ Ty.varsAll subject.args = [] ∧ store.Reference ⟨4⟩ ∧
      ReflTransGen store.Extends ⟨24⟩ ⟨4⟩ ∧
      ReflTransGen (store.StepsToward ⟨4⟩) ⟨24⟩ store.wellKnown.object ∧
      store.viewDepth subject.args ≤ checker.limits.maxDepth ∧
      ∃ view direct stepwise,
        checker.answer (checker.seenFrom subject store.wellKnown.object
          (store.generic store.wellKnown.object)) = .ok view ∧
        checker.answer (checker.viewAs subject ⟨4⟩ .empty) = .ok (some direct) ∧
        checker.answer (checker.viewAs view ⟨4⟩ .empty) = .ok (some stepwise) ∧
        store.paramsOf ⟨4⟩ = [⟨0⟩] ∧ direct.get? ⟨0⟩ = some (.cls store.wellKnown.string) ∧
        stepwise.get? ⟨0⟩ = some (.var ⟨1⟩) := by
  intro store checker subject
  have hrank : store.isWalkable (fun id => [1, 0, 0, 0, 0].getD id.index id.index) = true := by
    decide +kernel
  have htop : store.Extends ⟨24⟩ ⟨23⟩ := .of_mem (.cls ⟨23⟩) rfl (.tail _ (.head _)) rfl
  have hobject : store.Extends ⟨23⟩ ⟨0⟩ := .of_mem (.app ⟨0⟩ [.cls ⟨5⟩]) rfl (.head _) rfl
  have hcomparable : store.Extends ⟨0⟩ ⟨4⟩ := .of_mem (.app ⟨4⟩ [.var ⟨1⟩]) rfl (.head _) rfl
  have hfirst : store.StepsToward ⟨4⟩ ⟨24⟩ ⟨23⟩ := ⟨by decide, _, rfl, rfl⟩
  have hsecond : store.StepsToward ⟨4⟩ ⟨23⟩ ⟨0⟩ := ⟨by decide, _, rfl, rfl⟩
  refine ⟨.of_isWalkable hrank, ?_, ⟨rfl, ⟨⟨_, rfl⟩, by decide⟩, rfl, rfl⟩, rfl,
    ⟨⟨_, rfl⟩, by decide⟩, .tail (.tail (.single htop) hobject) hcomparable,
    .tail (.single hfirst) hsecond, by decide, _, _, _, rfl, rfl, rfl, rfl, rfl, rfl⟩
  rintro _ ⟨⟩
  rfl

end Checker

end JavaGenerics
