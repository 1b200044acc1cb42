import JavaGenerics.Arguments
import JavaGenerics.Proofs.Assignability
import JavaGenerics.Proofs.EdgePaths

/-!
# Seeing a type as an instance of a class above it

Where edges lead from the class of a ground type to a target, the type is an instance of the target
with certain arguments, `Store.argsAt`.  Here it is said what these are like and which questions
find them.

* `Store.Approachable` — the targets that a walk always arrives at if edges lead there.  The only
  others are `Object`, if it is an interface: every class counts as below it, and so a walk may take
  a step that does not lead there.
* `Walkable.argsAt_sees` — **the arguments found are those along a path of edges**; so there are as
  many as there should be, they are ground, and their nesting is bounded.
* `Checker.answer_viewAs_of_ascent`, `Checker.answer_seenFrom_generic` — what `Checker.viewAs` and
  `Checker.seenFrom` answer, under limits of at least `Store.viewDepth`.
-/

namespace JavaGenerics

open Relation

namespace Store

variable {store : Store}

/-! ## Targets that are arrived at -/

/-- A walk toward the class arrives there if edges do.  `Object` is such a class unless it is
declared as an interface. -/
def Approachable (store : Store) (target : ClassId) : Prop :=
  target = store.wellKnown.object → store.kindOf? target ≠ some .interface

/-- The core store with an interface `Object` of one parameter, and with no other class having
supertypes, but for two: an interface below `Object` of strings, and a class that implements that
one after `Cloneable`. -/
def interfaceTop (above : List Ty) : Store :=
  .ofDeclarations Stock.wellKnown
    ((Stock.coreClasses.map fun decl => { decl with superclass := none, interfaces := [] }).set
        Stock.wellKnown.object.index
        { name := "java.lang.Object", kind := .interface, params := [⟨1⟩], interfaces := above } ++
      [ { name := "com.example.Top", kind := .interface,
          interfaces := [.app Stock.wellKnown.object [.cls Stock.wellKnown.string]] },
        { name := "com.example.Both", interfaces := [Stock.cloneable, .cls ⟨23⟩] } ])
    (Stock.coreParams ++ [Stock.paramOf Stock.wellKnown.object "T"])

/-- Edges that lead from a class to one that is no interface start at the superclass. -/
lemma Kinded.superclass_on_path (hkinds : store.Kinded) {id target : ClassId} {decl : ClassDecl}
    (hdecl : store.class? id = some decl) (hkind : store.kindOf? target ≠ some .interface)
    (h : TransGen store.Extends id target) :
    ∃ edge parent, decl.superclass = some edge ∧ edge.rawClass? = some parent ∧
      ReflTransGen store.Extends parent target := by
  obtain ⟨parent, ⟨decl', hdecl', edge, hedge, hraw⟩, hrest⟩ := TransGen.head'_iff.mp h
  rw [hdecl, Option.some.injEq] at hdecl'
  subst hdecl'
  rcases mem_supertypes.mp hedge with hsuper | hinterface
  · exact ⟨edge, parent, hsuper, hraw, hrest⟩
  · have hparent := hkinds.interfaces_kind id decl hdecl edge hinterface parent hraw
    rcases hrest.cases_head with rfl | ⟨next, hnext, hrest'⟩
    · exact absurd hparent hkind
    · exact absurd (hkinds.interface_of_path (.head' hnext hrest') hparent) hkind

/-- **Where edges lead to an approachable target, the next step is along one that does.** -/
lemma Walkable.nextToward_of_path (hwalk : store.Walkable) {id target : ClassId}
    (htarget : store.wellKnown.isPrimitive target = false) (happroach : store.Approachable target)
    (h : TransGen store.Extends id target) :
    ∃ decl edge parent, store.class? id = some decl ∧ edge ∈ decl.edges.supertypes ∧
      edge.rawClass? = some parent ∧ ReflTransGen store.Extends parent target ∧
      store.nextToward id target = .ok (some edge) := by
  obtain ⟨parent, ⟨decl, hdecl, -⟩, -⟩ := TransGen.head'_iff.mp h
  have hne : id ≠ target := fun heq => hwalk.acyclic id (heq ▸ h)
  by_cases hobject : target = store.wellKnown.object
  · obtain ⟨edge, parent, hsuper, hraw, hpath⟩ :=
      hwalk.kinded.superclass_on_path hdecl (happroach hobject) h
    have hknown : store.Knows target := hobject ▸ hwalk.object_reference.1
    refine ⟨decl, edge, parent, hdecl, mem_supertypes.mpr (Or.inl hsuper), hraw, hpath, ?_⟩
    rw [hwalk.kinded.nextToward_of_class hdecl hknown (happroach hobject), hsuper]
  · rcases hwalk.nextToward_cases ⟨decl, hdecl⟩ htarget hne (Or.inr (Or.inr h)) with
      ⟨-, habsurd⟩ | ⟨decl', edge, parent, hdecl', hedge, hfits, hbelow, hnext⟩
    · exact absurd habsurd hobject
    exact ⟨decl', edge, parent, hdecl', hedge, hfits.1, hbelow.reflTransGen hobject, hnext⟩

lemma Below.of_path {id target : ClassId} (h : ReflTransGen store.Extends id target) :
    store.Below id target := by
  rcases reflTransGen_iff_eq_or_transGen.mp h with rfl | hpath
  · exact Or.inl rfl
  · exact Or.inr (Or.inr hpath)

/-- A way along which edges lead to the target has a level that belongs to it. -/
theorem Walkable.exists_level (hwalk : store.Walkable) {id target : ClassId} {args : List Ty}
    {levels : List (ClassId × List Ty)} (h : store.Ascent target id args levels)
    (htarget : store.wellKnown.isPrimitive target = false) (happroach : store.Approachable target)
    (hpath : ReflTransGen store.Extends id target) : ∃ found, (target, found) ∈ levels := by
  induction h with
  | arrive args => exact ⟨args, by simp⟩
  | stop hne hnext =>
      obtain ⟨-, edge, -, -, -, -, -, hsome⟩ := hwalk.nextToward_of_path htarget happroach
        ((reflTransGen_iff_eq_or_transGen.mp hpath).resolve_left (Ne.symm hne))
      rw [hnext] at hsome
      exact absurd hsome (by simp)
  | step hne hnext hraw hrest ih =>
      obtain ⟨-, edge', parent', -, -, hraw', hpath', hsome⟩ :=
        hwalk.nextToward_of_path htarget happroach
          ((reflTransGen_iff_eq_or_transGen.mp hpath).resolve_left (Ne.symm hne))
      rw [hnext] at hsome
      simp only [Except.ok.injEq, Option.some.injEq] at hsome
      subst hsome
      rw [hraw, Option.some.injEq] at hraw'
      subst hraw'
      obtain ⟨found, hfound⟩ := ih hpath'
      exact ⟨found, List.mem_cons_of_mem _ hfound⟩

/-! ## The arguments found -/

/-- The arguments at the target are those of its level. -/
lemma Ascent.argsAt_eq (hwalk : store.Walkable) {id target : ClassId} {args found : List Ty}
    {levels : List (ClassId × List Ty)} (h : store.Ascent target id args levels)
    (htarget : store.wellKnown.isPrimitive target = false) (hid : store.Knows id)
    (hbelow : store.Below id target) (hmem : (target, found) ∈ levels) :
    argsAt target levels = found := by
  obtain ⟨-, -, -, hpairwise⟩ := h.path hwalk htarget hid hbelow
  rw [argsAt, lookup_eq_some_of_mem hwalk.acyclic hpairwise hmem, Option.getD_some]

/-- **The arguments found at an approachable target are seen along a path of edges.** -/
theorem Walkable.argsAt_sees (hwalk : store.Walkable) {id target : ClassId} {args : List Ty}
    {levels : List (ClassId × List Ty)} (h : store.Ascent target id args levels)
    (htarget : store.wellKnown.isPrimitive target = false) (hid : store.Knows id)
    (happroach : store.Approachable target) (hpath : ReflTransGen store.Extends id target) :
    (target, argsAt target levels) ∈ levels ∧
      store.Sees id args target (argsAt target levels) := by
  obtain ⟨found, hmem⟩ := hwalk.exists_level h htarget happroach hpath
  have hbelow := Below.of_path hpath
  rw [h.argsAt_eq hwalk htarget hid hbelow hmem]
  exact ⟨hmem, h.sees hwalk htarget hid hbelow _ hmem⟩

/-- The nesting of arguments, and the number of levels, that no view of a class with the given
arguments exceeds. -/
def viewDepth (store : Store) (args : List Ty) : Nat :=
  store.size + Ty.deepest args + store.size * Ty.deepest store.edgeArgs + 1

/-- What is found at a target is as it should be: `args` are ground arguments for all parameters of
the class, and nested no more deeply than `bound` says. -/
structure Instance (store : Store) (target : ClassId) (args : List Ty) (bound : Nat) : Prop where
  length : args.length = (store.paramsOf target).length
  ground : Ty.varsAll args = []
  deepest : Ty.deepest args ≤ bound

/-- **The arguments found at a target are as they should be.**  Where `Object` is an interface, it
must not have parameters. -/
theorem Walkable.argsAt_instance (hwalk : store.Walkable) {id target : ClassId} {args : List Ty}
    {levels : List (ClassId × List Ty)} (h : store.Ascent target id args levels)
    (htarget : store.wellKnown.isPrimitive target = false) (hid : store.Knows id)
    (happroach : store.Approachable target ∨ store.paramsOf target = [])
    (hpath : ReflTransGen store.Extends id target)
    (hlength : args.length = (store.paramsOf id).length) (hground : Ty.varsAll args = []) :
    store.Instance target (argsAt target levels)
      (Ty.deepest args + store.height id * Ty.deepest store.edgeArgs) := by
  have hsees : ∀ {found}, (target, found) ∈ levels → store.Instance target found
      (Ty.deepest args + store.height id * Ty.deepest store.edgeArgs) := by
    intro found hmem
    have hsees := h.sees hwalk htarget hid (Below.of_path hpath) _ hmem
    exact ⟨hsees.arity hwalk hlength, hsees.ground hwalk hlength hground,
      (Nat.le_add_right _ _).trans (hsees.deepest_le hwalk)⟩
  rcases happroach with happroach | hnone
  · exact hsees (hwalk.argsAt_sees h htarget hid happroach hpath).1
  · -- Without parameters it does not matter whether the walk arrives.
    cases hlookup : levels.lookup target with
    | none => exact ⟨by simp [argsAt, hlookup, hnone], by simp [argsAt, hlookup, Ty.varsAll],
        by simp [argsAt, hlookup, Ty.deepest]⟩
    | some found =>
        obtain ⟨before, after, hsplit, -⟩ := List.lookup_eq_some_iff.mp hlookup
        have hmem : (target, found) ∈ levels := by simp [hsplit]
        rw [argsAt, hlookup]
        exact hsees hmem

/-- Distinct variables, each replaced by the type at its place, are these types. -/
lemma map_lookup_zip : ∀ {vars : List TypeVarId} {types : List Ty}, vars.Nodup →
    types.length = vars.length →
    vars.map (fun v => ((vars.zip types).lookup v).getD (.var v)) = types
  | [], [], _, _ => rfl
  | [], _ :: _, _, hlength => by simp at hlength
  | _ :: _, [], _, hlength => by simp at hlength
  | v :: vars, ty :: types, hnodup, hlength => by
    obtain ⟨hv, hrest⟩ := List.nodup_cons.mp hnodup
    have htail : vars.map (fun w => (((v :: vars).zip (ty :: types)).lookup w).getD (.var w)) =
        vars.map (fun w => ((vars.zip types).lookup w).getD (.var w)) := by
      refine List.map_congr_left fun w hw => ?_
      have hne : w ≠ v := fun heq => hv (heq ▸ hw)
      simp [List.lookup_cons, beq_eq_false_iff_ne.mpr hne]
    rw [List.map_cons, htail, map_lookup_zip hrest (by simpa using hlength)]
    simp

/-- No walk from an instance of a class above exceeds the depth of views. -/
lemma Walkable.lt_viewDepth (hwalk : store.Walkable) {id : ClassId} (hid : store.Knows id)
    {args found : List Ty}
    (hfound : Ty.deepest found ≤ Ty.deepest args + store.height id * Ty.deepest store.edgeArgs) :
    store.size + max (Ty.deepest found) (Ty.deepest store.edgeArgs) < store.viewDepth args := by
  have hmul : (store.height id + 1) * Ty.deepest store.edgeArgs ≤
      store.size * Ty.deepest store.edgeArgs := Nat.mul_le_mul_right _ (hwalk.height_lt_size hid)
  rw [Nat.add_mul, Nat.one_mul] at hmul
  rw [viewDepth]
  omega

/-- The class applied to its own parameters. -/
def generic (store : Store) (id : ClassId) : Ty :=
  .app id ((store.paramsOf id).map .var)

lemma vars_generic (id : ClassId) : (store.generic id).vars = store.paramsOf id := by
  simp only [generic, Ty.app, Ty.vars, Ty.varsOwner, List.append_nil, Ty.varsAll_eq_flatMap,
    List.flatMap_map]
  exact List.flatMap_singleton' _

lemma nesting_generic_le (id : ClassId) : (store.generic id).nesting ≤ 1 := by
  have hnone : Ty.deepest ((store.paramsOf id).map .var) ≤ 0 := by
    refine Ty.deepest_le fun ty hty => ?_
    obtain ⟨v, -, rfl⟩ := List.mem_map.mp hty
    simp [Ty.nesting]
  have hall := Ty.nestingAll_le_deepest ((store.paramsOf id).map Ty.var)
  simp only [generic, Ty.app, Ty.nesting, Ty.nestingOwner, Nat.max_zero]
  omega

end Store

namespace Checker

/-! ## The questions that find them -/

/-- From a ground type, all arguments are known before. -/
theorem answer_walkWithin_of_ascent (checker : Checker) (hwalk : checker.store.Walkable)
    {subject : Ty} {id target : ClassId} {levels : List (ClassId × List Ty)}
    (hfits : checker.store.FitsClass subject id) (hground : Ty.varsAll subject.args = [])
    (htarget : checker.isPrimitive target = false) (hbelow : checker.store.Below id target)
    (hascent : checker.store.Ascent target id subject.args levels) {fuel : Nat}
    (hfuel : checker.store.size + max (Ty.deepest subject.args)
      (Ty.deepest checker.store.edgeArgs) < fuel) :
    checker.answer (checker.walkWithin fuel subject target .empty) =
      .ok (some (checker.store.bindLevels .empty levels)) :=
  (checker.yields_walkWithin_of_applies hwalk (.of_ground hfits hground _) htarget hbelow hascent
    fuel ((Ty.nestingAll_le_deepest _).trans (Nat.succ_le_succ (Nat.le_max_left _ _)))
    (Nat.le_max_right _ _)).resolve_right fun hlate => absurd hlate.2 (Nat.not_le_of_lt hfuel)

/-- The same under a limit that exceeds the depth of every view. -/
theorem answer_viewAs_of_ascent (checker : Checker) (hwalk : checker.store.Walkable)
    {subject : Ty} {id target : ClassId} {levels : List (ClassId × List Ty)}
    (hfits : checker.store.FitsClass subject id) (hground : Ty.varsAll subject.args = [])
    (htarget : checker.isPrimitive target = false) (hbelow : checker.store.Below id target)
    (hascent : checker.store.Ascent target id subject.args levels)
    (hdepth : checker.store.size + max (Ty.deepest subject.args)
      (Ty.deepest checker.store.edgeArgs) ≤ checker.limits.maxDepth) :
    checker.answer (checker.viewAs subject target .empty) =
      .ok (some (checker.store.bindLevels .empty levels)) :=
  checker.answer_walkWithin_of_ascent hwalk hfits hground htarget hbelow hascent
    (Nat.lt_succ_of_le hdepth)

/-- **A class applied to its own parameters is seen applied to what a walk binds them to**, as a
nested class or not. -/
lemma answer_seenFrom_of_viewAs (checker : Checker) (hwalk : checker.store.Walkable)
    {subject : Ty} {target : ClassId} {bound : Bindings} {found : List Ty}
    (hview : checker.answer (checker.viewAs subject target .empty) = .ok (some bound))
    (hget : ∀ v ∈ checker.store.paramsOf target,
      bound.get? v = checker.store.assigning target found v)
    (hlength : found.length = (checker.store.paramsOf target).length)
    (hground : Ty.varsAll found = []) (hdepth : 0 < checker.limits.maxDepth)
    (enclosing : Option ClassId) :
    checker.answer (checker.seenFrom subject target
        (.applied target ((checker.store.paramsOf target).map .var) (enclosing.map .cls))) =
      .ok (.applied target found (enclosing.map .cls)) := by
  have hvars : (Ty.applied target ((checker.store.paramsOf target).map .var)
      (enclosing.map .cls)).vars = checker.store.paramsOf target := by
    cases enclosing <;> exact checker.store.vars_generic target
  have hresolves : Resolves bound (Ty.applied target ((checker.store.paramsOf target).map .var)
      (enclosing.map .cls)).vars := by
    intro v hv
    rw [hvars] at hv
    obtain ⟨ty, hty⟩ := Store.exists_assigning hlength hv
    have htyGround := Ty.varsAll_eq_nil.mp hground ty (Store.mem_of_assigning hty).2
    exact ⟨ty, (hget v hv).trans hty, htyGround.var?_eq_none⟩
  have hfuel : (Ty.applied target ((checker.store.paramsOf target).map .var)
      (enclosing.map .cls)).nesting < checker.fuel := by
    have hnesting := checker.store.nesting_generic_le target
    simp only [Store.generic, Ty.app, Ty.nesting, Ty.nestingOwner] at hnesting
    cases enclosing <;>
      simp only [fuel, Option.map_none, Option.map_some, Ty.nesting, Ty.nestingOwner] <;> omega
  have hargs : ((checker.store.paramsOf target).map Ty.var).map (Ty.subst bound.get?) = found := by
    rw [List.map_map]
    refine Eq.trans (List.map_congr_left fun v hv => ?_)
      (Store.map_lookup_zip (hwalk.params_nodup target) hlength)
    exact congrArg (fun found => Option.getD found (Ty.var v)) (hget v hv)
  have howner : Ty.substOwner bound.get? (enclosing.map .cls) = enclosing.map .cls := by
    cases enclosing <;> rfl
  simp only [seenFrom, answer_bind, hview, ok_bind, answer_lift, substitute,
    checker.substWithin_eq _ _ _ hresolves, if_pos hfuel, Ty.subst, Ty.substAll_eq_map, hargs,
    howner]

/-- **A class applied to its own parameters is seen, from a ground type, applied to the arguments
that are found there.** -/
theorem answer_seenFrom_generic (checker : Checker) (hwalk : checker.store.Walkable)
    {subject : Ty} {id target : ClassId} {levels : List (ClassId × List Ty)}
    (hfits : checker.store.FitsClass subject id) (hground : Ty.varsAll subject.args = [])
    (htarget : checker.isPrimitive target = false)
    (happroach : checker.store.Approachable target ∨ checker.store.paramsOf target = [])
    (hpath : ReflTransGen checker.store.Extends id target)
    (hascent : checker.store.Ascent target id subject.args levels)
    (hdepth : checker.store.viewDepth subject.args ≤ checker.limits.maxDepth) :
    checker.answer (checker.seenFrom subject target (checker.store.generic target)) =
      .ok (.app target (Store.argsAt target levels)) := by
  have hid := hfits.2.1.1
  have hbelow := Store.Below.of_path hpath
  have hfound := hwalk.argsAt_instance hascent htarget hid happroach hpath hfits.2.2.2 hground
  have hlimit := hwalk.lt_viewDepth hid (Nat.le_add_right (Ty.deepest subject.args) _)
  have hview := checker.answer_viewAs_of_ascent hwalk hfits hground htarget hbelow hascent
    (hlimit.le.trans hdepth)
  exact checker.answer_seenFrom_of_viewAs hwalk hview
    (fun v hv => hascent.get?_bindLevels_param hwalk htarget hid hbelow hv) hfound.length
    hfound.ground (by omega) none

end Checker

end JavaGenerics
