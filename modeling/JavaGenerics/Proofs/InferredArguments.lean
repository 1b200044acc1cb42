import JavaGenerics.Proofs.HigherLimits
import JavaGenerics.Proofs.InvariantArguments
import JavaGenerics.Proofs.PassedArguments
import JavaGenerics.Proofs.ViewAgreement

/-!
# Arguments inferred from a supertype

What does `ArrayList` have to be applied to if it is to be a `Collection<String>`?  The inference
walks up to `Collection`, looks up its arguments there, and on the way back copies each to the
parameter that is passed in its place.  **It looks at nothing else.**  An argument that is passed up
as `String`, as the one for `Comparable`, is not compared with the one that is wanted; and of the
arguments that are wanted for one and the same parameter the last is taken.

* `Checker.Inferred` — what the inferred bindings have to do with the arguments that are passed up
  (`Store.PassedUp`) and with those that are wanted, and `Inferred.step`, which carries this from a
  class to the one below it.
* `Checker.answer_assignable_iff_accepts` — an instance of a class is assignable to an instance of
  one above exactly if each argument that it passes up is accepted for the one that is wanted.
* `Checker.answer_assignable_inferred_iff` — **the inferred arguments do what they are for exactly
  if everything passed up, with them put in, is accepted**; and so if only parameters are passed up,
  and none of them for two different arguments.
* `Checker.string_inferred` — `String` is no `Comparable<Integer>`, although it is said to be one
  without further arguments.
-/

namespace JavaGenerics

open Relation

lemma Ty.var?_eq_some {ty : Ty} {v : TypeVarId} : ty.var? = some v ↔ ty = .var v := by
  cases ty <;> simp [Ty.var?]

namespace Checker

variable {checker : Checker}

/-! ## Copying arguments down -/

section Copying

variable {own declared : List TypeVarId} {args : List Ty} {map : Bindings} {v : TypeVarId} {ty : Ty}

/-- What one argument copies. -/
def copyArgument (own : List TypeVarId) (param : TypeVarId) (arg : Ty) (map : Bindings) :
    Bindings :=
  copyArguments own [param] [arg] map

lemma copyArguments_cons (own : List TypeVarId) (param : TypeVarId) (params : List TypeVarId)
    (arg : Ty) (args : List Ty) (map : Bindings) :
    copyArguments own (param :: params) (arg :: args) map =
      copyArguments own params args (copyArgument own param arg map) := by
  simp only [copyArgument, copyArguments]

lemma copyArguments_of_nil (own declared : List TypeVarId) (map : Bindings) :
    copyArguments own declared [] map = map := by
  cases declared <;> simp [copyArguments]

/-- An argument that is a parameter of the class itself is copied to it, if there is something to
copy, and any other changes nothing. -/
lemma get?_copyArgument (own : List TypeVarId) (param : TypeVarId) (arg : Ty) (map : Bindings)
    (v : TypeVarId) :
    (copyArgument own param arg map).get? v =
      if v ∈ own ∧ arg.var? = some v then (map.get? param).or (map.get? v) else map.get? v := by
  simp only [copyArgument, copyArguments]
  cases arg with
  | var w =>
      by_cases hw : w ∈ own
      · cases hparam : map.get? param with
        | none => simp [hw]
        | some ty =>
            simp only [List.contains_iff_mem.mpr hw, if_true, Bindings.get?_bind, Ty.var?,
              Option.some.injEq, Option.some_or]
            by_cases hv : v = w
            · simp [hv, hw]
            · simp [hv, Ne.symm hv]
      · have hskip : ¬ (v ∈ own ∧ (Ty.var w).var? = some v) := by
          rintro ⟨hv, hvar⟩
          exact hw (Option.some.inj hvar ▸ hv)
        simp [hw, hskip]
  | _ => simp [Ty.var?]

/-- **What a parameter stands for has been copied from a place where it is passed**, or is what it
stood for before. -/
lemma of_get?_copyArguments (hdisjoint : own.Disjoint declared)
    (h : (copyArguments own declared args map).get? v = some ty) :
    (v ∈ own ∧ ∃ param, (param, Ty.var v) ∈ declared.zip args ∧ map.get? param = some ty) ∨
      map.get? v = some ty := by
  induction declared generalizing args map with
  | nil => exact .inr (by simpa [copyArguments] using h)
  | cons param params ih =>
      cases args with
      | nil => exact .inr (by simpa [copyArguments] using h)
      | cons arg args =>
          rw [List.disjoint_cons_right] at hdisjoint
          rw [copyArguments_cons] at h
          rcases ih hdisjoint.2 h with ⟨hv, other, hmem, hother⟩ | hbefore
          · have hforeign : other ∉ own :=
              fun hown => hdisjoint.2 hown (List.of_mem_zip hmem).1
            rw [get?_copyArgument, if_neg fun h => hforeign h.1] at hother
            exact .inl ⟨hv, other, List.mem_cons_of_mem _ hmem, hother⟩
          · rw [get?_copyArgument] at hbefore
            split at hbefore
            · rename_i hcopied
              obtain ⟨hv, hvar⟩ := hcopied
              cases hparam : map.get? param with
              | none => exact .inr (by simpa [hparam] using hbefore)
              | some bound =>
                  obtain rfl : bound = ty := by simpa [hparam] using hbefore
                  exact .inl ⟨hv, param, by simp [Ty.var?_eq_some.mp hvar], hparam⟩
            · exact .inr hbefore

/-- What stands for something does so afterwards. -/
lemma exists_get?_copyArguments_of_bound (h : map.get? v = some ty) :
    ∃ ty', (copyArguments own declared args map).get? v = some ty' := by
  induction declared generalizing args map ty with
  | nil => exact ⟨ty, by simpa [copyArguments] using h⟩
  | cons param params ih =>
      cases args with
      | nil => exact ⟨ty, by simpa [copyArguments] using h⟩
      | cons arg args =>
          obtain ⟨ty', hty'⟩ : ∃ ty', (copyArgument own param arg map).get? v = some ty' := by
            rw [get?_copyArgument, h]
            split
            · cases map.get? param <;> simp
            · exact ⟨ty, rfl⟩
          rw [copyArguments_cons]
          exact ih hty'

/-- A parameter that is passed stands for something if the parameter in whose place it is passed
does. -/
lemma exists_get?_copyArguments (hdisjoint : own.Disjoint declared) (hv : v ∈ own)
    {param : TypeVarId} (hpassed : (param, Ty.var v) ∈ declared.zip args)
    (h : map.get? param = some ty) :
    ∃ ty', (copyArguments own declared args map).get? v = some ty' := by
  induction declared generalizing args map with
  | nil => simp at hpassed
  | cons first params ih =>
      cases args with
      | nil => simp at hpassed
      | cons arg args =>
          rw [List.disjoint_cons_right] at hdisjoint
          rw [copyArguments_cons]
          rcases List.mem_cons.mp hpassed with heq | hpassed
          · obtain ⟨rfl, rfl⟩ := Prod.mk.inj heq
            have hcopied : (copyArgument own param (.var v) map).get? v = some ty := by
              rw [get?_copyArgument, if_pos ⟨hv, rfl⟩, h, Option.some_or]
            exact exists_get?_copyArguments_of_bound hcopied
          · refine ih hdisjoint.2 hpassed ?_
            have hforeign : param ∉ own :=
              fun hown => hdisjoint.2 hown (List.of_mem_zip hpassed).1
            rw [get?_copyArgument, if_neg fun h => hforeign h.1, h]

end Copying

/-! ## What is inferred -/

/-- What bindings that are inferred for a class have to do with the arguments that it passes up and
with those that are wanted in their places.  Apart from these, only an owner brings bindings in. -/
structure Inferred (store : Store) (outer : Bindings) (wanted : List Ty) (id : ClassId)
    (passed : List Ty) (map : Bindings) : Prop where
  /-- What a parameter of the class stands for is wanted where the parameter is passed up. -/
  wanted_of_get? : ∀ v ∈ store.paramsOf id, ∀ ty, map.get? v = some ty →
    (Ty.var v, ty) ∈ passed.zip wanted ∨ ∃ w, outer.get? w = some ty
  /-- A parameter that is passed up stands for something. -/
  exists_get? : ∀ v ty, (Ty.var v, ty) ∈ passed.zip wanted → ∃ ty', map.get? v = some ty'
  /-- Nothing is known of parameters of classes that are not above. -/
  above : ∀ v ty, map.get? v = some ty →
    (∃ c, ReflTransGen store.Extends id c ∧ v ∈ store.paramsOf c) ∨ ∃ w, outer.get? w = some ty

namespace Inferred

variable {store : Store} {outer map : Bindings} {wanted passed : List Ty}
  {id parent target : ClassId}

/-- At the top, everything that is wanted is bound. -/
lemma top (hwalk : store.Walkable) (outer : Bindings) (wanted : List Ty) (target : ClassId) :
    Inferred store outer wanted target ((store.paramsOf target).map .var)
      (outer.bindAll (store.paramsOf target) wanted) := by
  have hzip (v : TypeVarId) (ty : Ty) :
      (Ty.var v, ty) ∈ ((store.paramsOf target).map .var).zip wanted ↔
        store.assigning target wanted v = some ty := by
    rw [Store.assigning_eq_some_iff (hwalk.params_nodup target), List.zip_map_left, List.mem_map]
    constructor
    · rintro ⟨⟨w, ty'⟩, hmem, heq⟩
      obtain ⟨hv, rfl⟩ := Prod.mk.inj heq
      obtain rfl := Ty.var.inj hv
      exact hmem
    · exact fun hmem => ⟨(v, ty), hmem, rfl⟩
  have hget (v : TypeVarId) : (outer.bindAll (store.paramsOf target) wanted).get? v =
      (store.assigning target wanted v).or (outer.get? v) :=
    Bindings.get?_bindAll outer wanted (hwalk.params_nodup target)
  refine ⟨fun v _ ty h => ?_, fun v ty h => ?_, fun v ty h => ?_⟩
  · rw [hzip]
    rw [hget, Option.or_eq_some_iff] at h
    exact h.imp_right fun h => ⟨v, h.2⟩
  · exact ⟨ty, by rw [hget, (hzip v ty).mp h, Option.some_or]⟩
  · rw [hget, Option.or_eq_some_iff] at h
    exact h.imp (fun h => ⟨target, .refl, (Store.mem_of_assigning h).1⟩) fun h => ⟨v, h.2⟩

/-- **What is inferred for a class is carried over to the class below it.** -/
theorem step (hwalk : store.Walkable) (h : Inferred store outer wanted parent passed map)
    (hpassed : store.PassedUp target parent passed) {decl : ClassDecl} {edge : Ty}
    (hdecl : store.class? id = some decl) (hedge : edge ∈ decl.edges.supertypes)
    (hraw : edge.rawClass? = some parent) :
    Inferred store outer wanted id (passed.map (Ty.subst (store.assigning parent edge.args)))
      (copyArguments (store.paramsOf id) (store.paramsOf parent) edge.args map) := by
  have hfits := hwalk.fits hdecl hedge hraw
  have hstep : store.Extends id parent := .of_mem edge hdecl hedge hraw
  have hforeign {c : ClassId} (hpath : ReflTransGen store.Extends parent c) :
      (store.paramsOf id).Disjoint (store.paramsOf c) := by
    refine hwalk.params_disjoint id c ?_
    rintro rfl
    exact hwalk.acyclic id (.head' hstep hpath)
  have hplace (v w : TypeVarId) : store.assigning parent edge.args w = some (.var v) ↔
      (w, Ty.var v) ∈ (store.paramsOf parent).zip edge.args :=
    Store.assigning_eq_some_iff (hwalk.params_nodup parent)
  refine ⟨fun v hv ty hget => ?_, fun v ty hmem => ?_, fun v ty hget => ?_⟩
  · rcases of_get?_copyArguments (hforeign .refl) hget with ⟨-, w, hw, hbound⟩ | hbound
    · refine (h.wanted_of_get? w (List.of_mem_zip hw).1 ty hbound).imp_left fun hmem => ?_
      rw [List.zip_map_left, List.mem_map]
      exact ⟨_, hmem, by simp [Ty.subst, (hplace v w).mpr hw]⟩
    · refine (h.above v ty hbound).imp_left fun ⟨c, hpath, hc⟩ => ?_
      exact absurd hc (hforeign hpath hv)
  · rw [List.zip_map_left, List.mem_map] at hmem
    obtain ⟨⟨arg, ty'⟩, hmem, heq⟩ := hmem
    obtain ⟨hvar, rfl⟩ := Prod.mk.inj heq
    -- Only a parameter of the parent can have become a parameter of the class.
    obtain ⟨w, rfl⟩ : ∃ w, arg = .var w := by
      cases arg with
      | var w => exact ⟨w, rfl⟩
      | _ => simp [Ty.subst] at hvar
    have hw : w ∈ store.paramsOf parent :=
      hpassed.vars hwalk w (Ty.mem_varsAll.mpr ⟨_, (List.of_mem_zip hmem).1, by simp [Ty.vars]⟩)
    obtain ⟨arg, harg⟩ := Store.exists_assigning hfits.2.2.2 hw
    obtain rfl : arg = .var v := by simpa [Ty.subst, harg] using hvar
    have hv : v ∈ store.paramsOf id := by
      rw [Store.paramsOf_eq hdecl]
      exact hwalk.own_vars id decl hdecl edge hedge v
        (Ty.mem_varsAll.mpr ⟨_, (Store.mem_of_assigning harg).2, by simp [Ty.vars]⟩)
    obtain ⟨ty'', hbound⟩ := h.exists_get? w _ hmem
    exact exists_get?_copyArguments (hforeign .refl) hv ((hplace v w).mp harg) hbound
  · rcases of_get?_copyArguments (hforeign .refl) hget with ⟨hv, -⟩ | hbound
    · exact .inl ⟨id, .refl, hv⟩
    · exact (h.above v ty hbound).imp_left fun ⟨c, hpath, hc⟩ => ⟨c, hpath.head hstep, hc⟩

end Inferred

/-! ## Where the inference starts -/

/-- What an owner without variables brings in: types without variables that it is made of, and
nothing if it is not applied. -/
structure BroughtIn (owner : Option Ty) (outer : Bindings) : Prop where
  ground : ∀ v ty, outer.get? v = some ty → ty.Ground
  nesting_lt : ∀ v ty, outer.get? v = some ty → ty.nesting < Ty.nestingOwner owner
  eq_empty : (∀ ty, owner = some ty → ty.isApplied = false) → outer = .empty

lemma BroughtIn.empty (owner : Option Ty) : BroughtIn owner .empty where
  ground v ty h := by simp at h
  nesting_lt v ty h := by simp at h
  eq_empty _ := rfl

/-- **What an instance of a class binds, seen as such**, are its arguments, besides what its owner
brings in. -/
theorem of_walkWithin_own (hwalk : checker.store.Walkable) (fuel : Nat) {raw : ClassId}
    {args : List Ty} {owner : Option Ty} (hground : (Ty.applied raw args owner).Ground)
    {result : Option Bindings}
    (h : checker.answer (checker.walkWithin fuel (.applied raw args owner) raw .empty) =
      .ok result) :
    ∃ outer : Bindings, result = some (outer.bindAll (checker.store.paramsOf raw) args) ∧
      args.length = (checker.store.paramsOf raw).length ∧ BroughtIn owner outer := by
  induction fuel generalizing raw args owner result with
  | zero => simp [walkWithin] at h
  | succ fuel ih =>
      obtain ⟨hargs, howner⟩ := Ty.ground_applied.mp hground
      have hconverts : checker.answer (checker.classConverts raw raw) = .ok true := by
        simp [classConverts]
      simp only [walkWithin, walkStep, walkApplied, answer_bind, hconverts, ok_bind, if_true,
        bind_eq_ok, answer_edgesOf] at h
      obtain ⟨outer, houter, edges, hedges, h⟩ := h
      obtain ⟨decl, hdecl, rfl⟩ := checker.class_of_edgesFromStore hedges
      have hparams : decl.edges.params = checker.store.paramsOf raw :=
        (Store.paramsOf_eq hdecl).symm
      rw [hparams] at h
      split at h
      · simp at h
      rename_i hlength
      have hlength : (checker.store.paramsOf raw).length = args.length := not_not.mp hlength
      have hbind := bindArguments_eq checker fuel outer (checker.store.paramsOf raw) args outer
        hlength (by simp [Resolves, hargs]) (by simp [hargs])
      rw [Ty.substAll_eq_self args (by simp [hargs])] at hbind
      simp only [answer_bind, answer_lift, answer_pure, bind_eq_ok, hbind] at h
      obtain ⟨bound, hbound, h⟩ := h
      split at hbound
      case isFalse => simp at hbound
      obtain rfl := Except.ok.inj hbound
      refine ⟨outer, (Except.ok.inj h).symm, hlength.symm, ?_⟩
      unfold walkOwner at houter
      split at houter
      case h_2 _ hplain =>
        obtain rfl : .empty = outer := by simpa using houter
        exact .empty owner
      case h_1 _ ownerRaw ownerArgs ownerOuter =>
        simp only [answer_bind, answer_pure, bind_eq_ok] at houter
        obtain ⟨found, hfound, houter⟩ := houter
        have hownerGround : (Ty.applied ownerRaw ownerArgs ownerOuter).Ground := howner
        obtain ⟨further, rfl, -, hfurther⟩ := ih hownerGround hfound
        obtain rfl := Except.ok.inj houter
        have hall := (Ty.ground_applied.mp hownerGround).1
        have hcases (v : TypeVarId) (ty : Ty)
            (hget : (further.bindAll (checker.store.paramsOf ownerRaw) ownerArgs).get? v =
              some ty) : ty ∈ ownerArgs ∨ further.get? v = some ty := by
          rw [Bindings.get?_bindAll _ _ (hwalk.params_nodup ownerRaw),
            Option.or_eq_some_iff] at hget
          exact hget.imp (fun h => (Store.mem_of_assigning h).2) And.right
        refine ⟨fun v ty hget => ?_, fun v ty hget => ?_, fun happlied => ?_⟩
        · rcases hcases v ty hget with hmem | hget
          · exact Ty.varsAll_eq_nil.mp hall ty hmem
          · exact hfurther.ground v ty hget
        · simp only [Ty.nestingOwner, Ty.nesting]
          rcases hcases v ty hget with hmem | hget
          · have := Ty.nesting_lt_nestingAll hmem
            omega
          · have := hfurther.nesting_lt v ty hget
            omega
        · exact absurd (happlied _ rfl) (by simp [Ty.isApplied])

/-- The inference for an instance of a class starts from its arguments and what its owner brings
in, and the walk that finds them takes less fuel than there is. -/
structure Starts (checker : Checker) (raw : ClassId) (wanted : List Ty) (owner : Option Ty)
    (outer : Bindings) (fuel : Nat) : Prop where
  length : wanted.length = (checker.store.paramsOf raw).length
  brought : BroughtIn owner outer
  walk : ∃ n < fuel, checker.answer
      (checker.walkWithin n (.applied raw wanted owner) raw .empty) =
    .ok (some (outer.bindAll (checker.store.paramsOf raw) wanted))

lemma Starts.mono {raw : ClassId} {wanted : List Ty} {owner : Option Ty} {outer : Bindings}
    {fuel fuel' : Nat} (h : checker.Starts raw wanted owner outer fuel) (hfuel : fuel ≤ fuel') :
    checker.Starts raw wanted owner outer fuel' where
  length := h.length
  brought := h.brought
  walk := h.walk.imp fun _ => And.imp_left fun hlt => hlt.trans_le hfuel

/-! ## The whole inference -/

section Inference

variable {raw id : ClassId} {superType : Ty} {fuel : Nat} {map : Bindings}

/-- **One step of the inference**: below the class of the supertype, what is inferred is copied from
what is inferred for the next class on the way there. -/
lemma of_inferWithin (hwalk : checker.store.Walkable) (hraw : checker.store.Reference raw)
    (hid : checker.store.Reference id) (hne : id ≠ raw)
    (h : checker.answer (checker.inferWithin raw superType (fuel + 1) id) = .ok (some map)) :
    ∃ decl edge parent map', checker.store.class? id = some decl ∧
      edge ∈ decl.edges.supertypes ∧ edge.rawClass? = some parent ∧
      checker.store.nextToward id raw = .ok (some edge) ∧
      checker.answer (checker.inferWithin raw superType fuel parent) = .ok (some map') ∧
      map = copyArguments (checker.store.paramsOf id) (checker.store.paramsOf parent)
        edge.args map' := by
  obtain ⟨below, hbelow, hiff⟩ := answer_classConverts hwalk.nominal hid.1 hid.2 hraw.2
  simp only [inferWithin, answer_bind, hbelow, ok_bind] at h
  cases below with
  | false => simp at h
  | true =>
      simp only [if_true, if_neg hne, answer_bind, answer_parentToward, bind_eq_ok] at h
      obtain ⟨next, hnext, h⟩ := h
      cases next with
      | none => simp at h
      | some edge =>
          obtain ⟨decl, parent, hdecl, hedge, hfits, -⟩ :=
            hwalk.of_nextToward hid.1 hraw.2 hne (hiff.mp rfl) hnext
          refine ⟨decl, edge, parent, ?_⟩
          cases edge with
          | cls other =>
              obtain rfl := Option.some.inj hfits.1
              exact ⟨map, hdecl, hedge, rfl, hnext, h, (copyArguments_of_nil _ _ map).symm⟩
          | applied other args owner =>
              obtain rfl := Option.some.inj hfits.1
              obtain rfl : owner = none := hfits.2.2.1
              simp only [answer_bind, bind_eq_ok] at h
              obtain ⟨found, hfound, h⟩ := h
              cases found with
              | none => simp at h
              | some map' =>
                  obtain ⟨parentDecl, hparent⟩ := hfits.2.1.1
                  simp only [carryArguments, map_eq_pure_bind, pure_bind, answer_bind,
                    answer_edgesOf, checker.edgesFromStore_of_class hdecl,
                    checker.edgesFromStore_of_class hparent, ok_bind, answer_pure] at h
                  refine ⟨map', hdecl, hedge, rfl, hnext, hfound, ?_⟩
                  rw [Store.paramsOf_eq hdecl, Store.paramsOf_eq hparent]
                  exact (Option.some.inj (Except.ok.inj h)).symm
          | var v => exact absurd hfits.1 (by simp [Ty.rawClass?])
          | wildcard upper lower => exact absurd hfits.1 (by simp [Ty.rawClass?])
          | array component => exact absurd hfits.1 (by simp [Ty.rawClass?])

/-- **Every inference starts at an instance, and copies from there along the edges that are chosen
toward its class.** -/
theorem inferred_of_inferWithin (hwalk : checker.store.Walkable)
    (hraw : checker.store.Reference raw) {wanted : List Ty} {owner : Option Ty}
    (hground : (Ty.applied raw wanted owner).Ground) (fuel : Nat)
    (hid : checker.store.Reference id)
    (h : checker.answer (checker.inferWithin raw (.applied raw wanted owner) fuel id) =
      .ok (some map)) :
    ∃ outer passed, checker.store.PassedUp raw id passed ∧
      Inferred checker.store outer wanted id passed map ∧
      checker.Starts raw wanted owner outer fuel := by
  induction fuel generalizing id map with
  | zero => simp [inferWithin] at h
  | succ fuel ih =>
      by_cases hne : id = raw
      · subst hne
        have hconverts : checker.answer (checker.classConverts id id) = .ok true := by
          simp [classConverts]
        have hwalked : checker.answer
            (checker.walkWithin fuel (.applied id wanted owner) id .empty) = .ok (some map) := by
          simpa [inferWithin, hconverts] using h
        obtain ⟨outer, hmap, hlength, hbrought⟩ := of_walkWithin_own hwalk fuel hground hwalked
        obtain rfl := Option.some.inj hmap
        exact ⟨outer, _, .arrive, .top hwalk outer wanted id, hlength, hbrought,
          fuel, Nat.lt_succ_self fuel, hwalked⟩
      · obtain ⟨decl, edge, parent, map', hdecl, hedge, hraw', hnext, hrest, rfl⟩ :=
          of_inferWithin hwalk hraw hid hne h
        obtain ⟨outer, passed, hpassed, hinferred, hstarts⟩ :=
          ih (hwalk.fits hdecl hedge hraw').2.1 hrest
        exact ⟨outer, _, .step hne hdecl hedge hraw' hnext hpassed,
          hinferred.step hwalk hpassed hdecl hedge hraw', hstarts.mono (Nat.le_succ fuel)⟩

end Inference

/-! ## Assigning an instance to an instance of a class above -/

/-- Whether an argument is accepted where another one is wanted: it is the same, or the other one is
a wildcard that contains it. -/
def Accepts (checker : Checker) (given wanted : Ty) : Prop :=
  (given == wanted) = true ∨ ∃ upper lower, wanted = .wildcard upper lower ∧
    checker.answer (checker.containWithin checker.limits.maxDepth given upper lower none) = .ok true

lemma answer_fitsQuery_iff {given wanted : Ty} :
    checker.answer (fitsQuery (checker.containWithin checker.limits.maxDepth) given wanted) =
      .ok true ↔ checker.Accepts given wanted := by
  by_cases hsame : (given == wanted) = true
  · simp [fitsQuery, Accepts, hsame]
  · cases wanted with
    | wildcard upper lower => simp [fitsQuery, Accepts, hsame]
    | _ => simp [fitsQuery, Accepts, hsame]

section Assigning

variable {source target : Ty} {sourceMap targetMap : Bindings}

/-- **Arguments without variables fit exactly if each is accepted for the one in its place.** -/
lemma answer_argumentsFit_iff_accepts {params : List TypeVarId} {found wanted : List Ty}
    (hfound : found.length = params.length) (hwanted : wanted.length = params.length)
    (hsource : ∀ v ty, (v, ty) ∈ params.zip found → sourceMap.get? v = some ty)
    (htarget : ∀ v ty, (v, ty) ∈ params.zip wanted → targetMap.get? v = some ty)
    (hfoundGround : Ty.varsAll found = []) (hwantedGround : Ty.varsAll wanted = []) :
    checker.answer (checker.argumentsFit (checker.containWithin checker.limits.maxDepth) source
        target sourceMap targetMap none params) = .ok true ↔
      ∀ entry ∈ found.zip wanted, checker.Accepts entry.1 entry.2 := by
  induction params generalizing found wanted with
  | nil => simp [argumentsFit, List.eq_nil_of_length_eq_zero hfound]
  | cons v params ih =>
      cases found with
      | nil => simp at hfound
      | cons given found =>
          cases wanted with
          | nil => simp at hwanted
          | cons want wanted =>
              simp only [Ty.varsAll, List.append_eq_nil_iff] at hfoundGround hwantedGround
              have hgiven : given.Ground := hfoundGround.1
              have hwant : want.Ground := hwantedGround.1
              have hgivenFound := answer_foundArgument_of_get? checker
                (hsource v given (by simp)) hgiven.var?_eq_none source
              have hwantFound := answer_foundArgument_of_get? checker
                (htarget v want (by simp)) hwant.var?_eq_none target
              have hrest := ih (by simpa using hfound) (by simpa using hwanted)
                (fun w ty hmem => hsource w ty (List.mem_cons_of_mem _ hmem))
                (fun w ty hmem => htarget w ty (List.mem_cons_of_mem _ hmem))
                hfoundGround.2 hwantedGround.2
              rw [answer_argumentsFit_found checker _ hwantFound hgivenFound, bind_eq_ok,
                List.zip_cons_cons, List.forall_mem_cons, ← hrest, ← answer_fitsQuery_iff]
              constructor
              · rintro ⟨b, hb, h⟩
                cases b with
                | true => exact ⟨hb, by simpa using h⟩
                | false => simp at h
              · rintro ⟨hb, h⟩
                exact ⟨true, hb, by simpa using h⟩

/-- Arguments in the same place of equal lists are the same. -/
lemma same_of_mem_zip_of_sameAll : ∀ {as bs : List Ty}, Ty.sameAll as bs = true →
    ∀ entry ∈ as.zip bs, (entry.1 == entry.2) = true
  | [], _, _ => by simp
  | _ :: _, [], _ => by simp
  | a :: as, b :: bs, h => by
    rw [Ty.sameAll, Bool.and_eq_true] at h
    rw [List.zip_cons_cons, List.forall_mem_cons]
    exact ⟨h.1, same_of_mem_zip_of_sameAll h.2⟩

/-- A walk that succeeds does so with more fuel. -/
lemma answer_walkWithin_mono {fuel fuel' : Nat} (hfuel : fuel ≤ fuel') {subject : Ty}
    {target : ClassId} {map : Bindings} {result : Option Bindings}
    (h : checker.answer (checker.walkWithin fuel subject target map) = .ok result) :
    checker.answer (checker.walkWithin fuel' subject target map) = .ok result :=
  (((milder_of_le checker.store (le_refl checker.limits.maxVariableChain)).decisions
    hfuel).1 subject target map).run_eq_ok h

/-- **An instance of a class is assignable to an instance of a class above exactly if what it passes
up there is accepted**, argument by argument. -/
theorem answer_assignable_iff_accepts (checker : Checker) (hwalk : checker.store.Walkable)
    {id raw : ClassId} (hid : checker.store.Reference id) (hraw : checker.store.Reference raw)
    {args wanted passed : List Ty} {owner : Option Ty} {outer : Bindings}
    (hlength : args.length = (checker.store.paramsOf id).length) (hargs : Ty.varsAll args = [])
    (hpassed : checker.store.PassedUp raw id passed) (hwanted : Ty.varsAll wanted = [])
    (hstarts : checker.Starts raw wanted owner outer checker.fuel)
    (hdepth : checker.store.size + max (Ty.deepest args) (Ty.deepest checker.store.edgeArgs) <
      checker.limits.maxDepth) (enclosing : Option ClassId) :
    checker.answer (checker.assignable (some (.applied id args (enclosing.map .cls)))
        (.applied raw wanted owner) none) = .ok true ↔
      ∀ entry ∈ passed.zip wanted,
        checker.Accepts (entry.1.subst (checker.store.assigning id args)) entry.2 := by
  have hzip : (∀ entry ∈ (passed.map (Ty.subst (checker.store.assigning id args))).zip wanted,
        checker.Accepts entry.1 entry.2) ↔
      ∀ entry ∈ passed.zip wanted,
        checker.Accepts (entry.1.subst (checker.store.assigning id args)) entry.2 := by
    rw [List.zip_map_left, List.forall_mem_map]
    rfl
  rw [← hzip]
  obtain ⟨levels, hascent, hlevel⟩ := hpassed.exists_ascent hwalk hlength
  generalize hfound : passed.map (Ty.subst (checker.store.assigning id args)) = found at hlevel ⊢
  have hbelow := Store.Below.of_path hpassed.path
  have hfits : checker.store.FitsClass (.app id args) id := ⟨rfl, hid, rfl, hlength⟩
  have hsource := checker.answer_walkWithin_of_ascent hwalk hfits hargs hraw.2 hbelow hascent hdepth
  obtain ⟨n, hn, htarget⟩ := hstarts.walk
  have htarget := answer_walkWithin_mono (Nat.le_of_lt_succ hn) htarget
  have hfoundGround : Ty.varsAll found = [] :=
    (hascent.sees hwalk hraw.2 hid.1 hbelow _ hlevel).ground hwalk hlength hargs
  have hfoundLength : found.length = (checker.store.paramsOf raw).length := by
    rw [← hfound, List.length_map, hpassed.length]
  obtain ⟨decl, hdecl⟩ := hraw.1
  have hparams : decl.edges.params = checker.store.paramsOf raw := (Store.paramsOf_eq hdecl).symm
  simp only [assignable, fuel, assignWithin, assignStep, answer_ite]
  split
  case isTrue hsame =>
    -- The same instance: it passes up its own arguments.
    have hself : id = raw ∧ Ty.sameAll args wanted = true := by
      simpa [Ty.same] using show Ty.same _ _ = true from hsame
    obtain ⟨rfl, hall⟩ := hself
    cases hpassed with
    | step hne => exact absurd rfl hne
    | arrive =>
        obtain rfl : args = found := by
          rw [← hfound, Store.map_subst_assigning_params (hwalk.params_nodup id) hlength]
        exact iff_of_true rfl fun entry hentry =>
          .inl (same_of_mem_zip_of_sameAll hall entry hentry)
  case isFalse =>
    rw [assignToApplied_eq _ _ rfl]
    simp only [compareInstances, answer_bind, walkWithin_owner, hsource, ok_bind, Option.getD_none,
      htarget, answer_edgesOf, checker.edgesFromStore_of_class hdecl, hparams]
    refine answer_argumentsFit_iff_accepts hfoundLength hstarts.length (fun v ty hmem => ?_)
      (fun v ty hmem => ?_) hfoundGround hwanted
    · rw [hascent.get?_bindLevels_param hwalk hraw.2 hid.1 hbelow (List.of_mem_zip hmem).1,
        hascent.argsAt_eq hwalk hraw.2 hid.1 hbelow hlevel]
      exact (Store.assigning_eq_some_iff (hwalk.params_nodup raw)).mpr hmem
    · rw [Bindings.get?_bindAll _ _ (hwalk.params_nodup raw)]
      exact Option.or_eq_some_iff.mpr
        (.inl ((Store.assigning_eq_some_iff (hwalk.params_nodup raw)).mpr hmem))

end Assigning

/-! ## Assigning what is inferred -/

/-- The arguments that bindings give to a class: what each of its parameters stands for. -/
def boundArguments (store : Store) (id : ClassId) (map : Bindings) : List Ty :=
  (store.paramsOf id).map fun v => (map.get? v).getD (.var v)

section BoundArguments

variable {store : Store} {id : ClassId} {map : Bindings}

@[simp] lemma length_boundArguments :
    (boundArguments store id map).length = (store.paramsOf id).length :=
  List.length_map _

/-- Putting in these arguments is putting in the bindings. -/
lemma assigning_boundArguments (hwalk : store.Walkable) {v : TypeVarId} (hv : v ∈ store.paramsOf id)
    {ty : Ty} (hty : map.get? v = some ty) :
    store.assigning id (boundArguments store id map) v = some ty := by
  rw [Store.assigning_eq_some_iff (hwalk.params_nodup id), boundArguments,
    ← List.map_prod_left_eq_zip, List.mem_map]
  exact ⟨v, hv, by rw [hty, Option.getD_some]⟩

/-- What is inferred is part of the supertype: it has no variables, and is nested less deeply. -/
lemma Inferred.ground_and_nesting_lt {outer : Bindings} {raw : ClassId} {wanted passed : List Ty}
    {owner : Option Ty} (h : Inferred store outer wanted id passed map)
    (hbrought : BroughtIn owner outer) (hground : (Ty.applied raw wanted owner).Ground)
    (hbound : ∀ v ∈ store.paramsOf id, ∃ ty, map.get? v = some ty) {ty : Ty}
    (hty : ty ∈ boundArguments store id map) :
    ty.Ground ∧ ty.nesting < (Ty.applied raw wanted owner).nesting := by
  obtain ⟨v, hv, rfl⟩ := List.mem_map.mp hty
  obtain ⟨ty, hget⟩ := hbound v hv
  rw [hget, Option.getD_some, Ty.nesting, lt_max_iff]
  rcases h.wanted_of_get? v hv ty hget with hmem | ⟨w, hw⟩
  · have hwanted := (List.of_mem_zip hmem).2
    have hall := (Ty.ground_applied.mp hground).1
    exact ⟨Ty.varsAll_eq_nil.mp hall ty hwanted, .inl (Ty.nesting_lt_nestingAll hwanted)⟩
  · exact ⟨hbrought.ground w ty hw, .inr (hbrought.nesting_lt w ty hw)⟩

end BoundArguments

/-- **The class applied to what is inferred for it** is assignable to the supertype exactly if
everything that it passes up there, with the bindings put in, is accepted. -/
lemma answer_assignable_boundArguments (hwalk : checker.store.Walkable) {id raw : ClassId}
    (hid : checker.store.Reference id) (hraw : checker.store.Reference raw)
    {wanted passed : List Ty} {owner : Option Ty} {outer map : Bindings}
    (hground : (Ty.applied raw wanted owner).Ground)
    (hdepth : checker.store.size +
      max (Ty.applied raw wanted owner).nesting (Ty.deepest checker.store.edgeArgs) <
        checker.limits.maxDepth)
    (hpassed : checker.store.PassedUp raw id passed)
    (hinferred : Inferred checker.store outer wanted id passed map)
    (hstarts : checker.Starts raw wanted owner outer checker.fuel)
    (hbound : ∀ v ∈ checker.store.paramsOf id, ∃ ty, map.get? v = some ty)
    (enclosing : Option ClassId) :
    checker.answer (checker.assignable
        (some (.applied id (boundArguments checker.store id map) (enclosing.map .cls)))
        (.applied raw wanted owner) none) = .ok true ↔
      ∀ entry ∈ passed.zip wanted, checker.Accepts (entry.1.subst map.get?) entry.2 := by
  have hargs : ∀ ty ∈ boundArguments checker.store id map,
      ty.Ground ∧ ty.nesting < (Ty.applied raw wanted owner).nesting :=
    fun ty => hinferred.ground_and_nesting_lt hstarts.brought hground hbound
  have hdeepest := Ty.deepest_le fun ty hty => (hargs ty hty).2.le
  have hwanted := (Ty.ground_applied.mp hground).1
  have hsubst : ∀ entry ∈ passed.zip wanted,
      entry.1.subst (checker.store.assigning id (boundArguments checker.store id map)) =
        entry.1.subst map.get? := by
    refine fun entry hentry => Ty.subst_congr _ fun v hv => ?_
    have hparam := hpassed.vars hwalk v
      (Ty.mem_varsAll.mpr ⟨_, (List.of_mem_zip hentry).1, hv⟩)
    obtain ⟨ty, hty⟩ := hbound v hparam
    rw [assigning_boundArguments hwalk hparam hty, hty]
  rw [checker.answer_assignable_iff_accepts hwalk hid hraw length_boundArguments
    (Ty.varsAll_eq_nil.mpr fun ty hty => (hargs ty hty).1) hpassed hwanted hstarts (by omega)]
  exact forall₂_congr fun entry hentry => by rw [hsubst entry hentry]

/-- If no applied owner of the supertype brings anything in, each inferred binding is wanted in a
place where the parameter itself is passed up. -/
lemma Inferred.mem_zip_of_owner {store : Store} {outer map : Bindings} {id : ClassId}
    {wanted passed : List Ty} {owner : Option Ty}
    (h : Inferred store outer wanted id passed map) (hbrought : BroughtIn owner outer)
    (howner : ∀ ty, owner = some ty → ty.isApplied = false) {v : TypeVarId}
    (hv : v ∈ store.paramsOf id) {ty : Ty} (hty : map.get? v = some ty) :
    (Ty.var v, ty) ∈ passed.zip wanted := by
  refine (h.wanted_of_get? v hv ty hty).resolve_right ?_
  rintro ⟨w, hw⟩
  rw [hbrought.eq_empty howner, Bindings.get?_empty] at hw
  exact absurd hw (by simp)

/-- **When the inferred arguments make the class a subtype.**  Suppose that bindings are inferred
for all parameters of a class, so that the class can be applied to them.  What comes of it is
assignable to the supertype exactly if everything that the class passes up there, with these
bindings put in, is accepted for what is wanted; the inference does not see to that.  Each binding
is wanted in a place where the parameter itself is passed up, unless an owner of the supertype
brings bindings in.  So the arguments are right if the class passes up nothing but parameters, and
none of them for two different arguments. -/
theorem answer_assignable_inferred_iff (checker : Checker) (hwalk : checker.store.Walkable)
    {id raw : ClassId} (hid : checker.store.Reference id) (hraw : checker.store.Reference raw)
    {wanted : List Ty} {owner : Option Ty} (hground : (Ty.applied raw wanted owner).Ground)
    (hdepth : checker.store.size +
      max (Ty.applied raw wanted owner).nesting (Ty.deepest checker.store.edgeArgs) <
        checker.limits.maxDepth) {map : Bindings}
    (h : checker.answer (checker.inferArguments id (.applied raw wanted owner)) = .ok (some map))
    (hbound : ∀ v ∈ checker.store.paramsOf id, ∃ ty, map.get? v = some ty) :
    ∃ passed given, checker.store.PassedUp raw id passed ∧
      checker.store.applyFromBindings id map = .ok given ∧
      (checker.answer (checker.assignable (some given) (.applied raw wanted owner) none) =
          .ok true ↔
        ∀ entry ∈ passed.zip wanted, checker.Accepts (entry.1.subst map.get?) entry.2) ∧
      ((∀ ty, owner = some ty → ty.isApplied = false) →
        (∀ v ∈ checker.store.paramsOf id, ∀ ty, map.get? v = some ty →
          (Ty.var v, ty) ∈ passed.zip wanted) ∧
        ((∀ entry ∈ passed.zip wanted, ∃ v, entry.1 = .var v ∧
            ∀ other, (Ty.var v, other) ∈ passed.zip wanted → (other == entry.2) = true) →
          checker.answer (checker.assignable (some given) (.applied raw wanted owner) none) =
            .ok true)) := by
  obtain ⟨outer, passed, hpassed, hinferred, hstarts⟩ :=
    inferred_of_inferWithin hwalk hraw hground checker.fuel hid h
  obtain ⟨decl, hdecl⟩ := hid.1
  have hgiven : checker.store.applyFromBindings id map =
      .ok (.applied id (boundArguments checker.store id map) (decl.enclosing.map .cls)) := by
    refine Store.applyFromBindings_eq hwalk hdecl length_boundArguments fun v hv => ?_
    obtain ⟨ty, hty⟩ := hbound v hv
    rw [assigning_boundArguments hwalk hv hty, hty]
  have hiff := answer_assignable_boundArguments hwalk hid hraw hground hdepth hpassed hinferred
    hstarts hbound decl.enclosing
  refine ⟨passed, _, hpassed, hgiven, hiff, fun howner => ?_⟩
  have hplace : ∀ v ∈ checker.store.paramsOf id, ∀ ty, map.get? v = some ty →
      (Ty.var v, ty) ∈ passed.zip wanted :=
    fun v hv ty hty => hinferred.mem_zip_of_owner hstarts.brought howner hv hty
  refine ⟨hplace, fun hplain => hiff.mpr fun entry hentry => .inl ?_⟩
  obtain ⟨v, hvar, hsame⟩ := hplain entry hentry
  have hv : v ∈ checker.store.paramsOf id := hpassed.vars hwalk v
    (Ty.mem_varsAll.mpr ⟨_, (List.of_mem_zip hentry).1, by simp [hvar, Ty.vars]⟩)
  obtain ⟨ty, hty⟩ := hbound v hv
  rw [hvar, Ty.subst, hty, Option.getD_some]
  exact hsame ty (hplace v hv ty hty)

/-- What is inferred for `HashMap` from `Map<String, Integer>` makes it a subtype. -/
theorem hashMap_inferred :
    let checker : Checker := { store := .collections }
    let string := Ty.cls checker.store.wellKnown.string
    let integer := Ty.cls checker.store.wellKnown.integer
    let wanted := Ty.app ⟨30⟩ [string, integer]
    ∃ map given, checker.answer (checker.inferArguments ⟨32⟩ wanted) = .ok (some map) ∧
      map.get? ⟨12⟩ = some string ∧ map.get? ⟨13⟩ = some integer ∧
      checker.store.applyFromBindings ⟨32⟩ map = .ok given ∧
      checker.answer (checker.assignable (some given) wanted none) = .ok true := by
  intro checker string integer wanted
  obtain ⟨map, hmap, hkey, hvalue⟩ : ∃ map,
      checker.answer (checker.inferArguments ⟨32⟩ wanted) = .ok (some map) ∧
        map.get? ⟨12⟩ = some string ∧ map.get? ⟨13⟩ = some integer := ⟨_, rfl, rfl, rfl⟩
  have hparams : checker.store.paramsOf ⟨32⟩ = [⟨12⟩, ⟨13⟩] := rfl
  have hbound : ∀ v ∈ checker.store.paramsOf ⟨32⟩, ∃ ty, map.get? v = some ty := by
    simp [hparams, hkey, hvalue]
  have hid : checker.store.Reference ⟨32⟩ := ⟨⟨_, rfl⟩, rfl⟩
  have hraw : checker.store.Reference ⟨30⟩ := ⟨⟨_, rfl⟩, rfl⟩
  have hground : wanted.Ground := rfl
  obtain ⟨passed, given, hpassed, hgiven, -, hplain⟩ :=
    checker.answer_assignable_inferred_iff Store.collections_regular.toWalkable hid hraw hground
      (by decide +kernel) hmap hbound
  have hhashMap := @Store.PassedUp.step checker.store ⟨30⟩ ⟨32⟩ ⟨30⟩ _
    (.app ⟨30⟩ [.var ⟨12⟩, .var ⟨13⟩]) _ (by decide) rfl (.tail _ (.head _)) rfl rfl .arrive
  obtain rfl : passed = [.var ⟨12⟩, .var ⟨13⟩] := hpassed.unique hhashMap
  exact ⟨map, given, hmap, hkey, hvalue, hgiven, (hplain (by simp)).2 (by simp)⟩

/-- **A wanted argument that meets another one**: `Comparable<Integer>` is said to ask nothing of
`String`, which is no `Comparable<Integer>`. -/
theorem string_inferred :
    let checker : Checker := { store := .collections }
    let string := checker.store.wellKnown.string
    let comparable := Ty.app ⟨4⟩ [.cls checker.store.wellKnown.integer]
    checker.store.Regular ∧ ∃ map given,
      checker.answer (checker.inferArguments string comparable) = .ok (some map) ∧
      (∀ v ∈ checker.store.paramsOf string, ∃ ty, map.get? v = some ty) ∧
      checker.store.applyFromBindings string map = .ok given ∧
      checker.answer (checker.assignable (some given) comparable none) = .ok false := by
  intro checker string comparable
  have hparams : checker.store.paramsOf string = [] := rfl
  exact ⟨Store.collections_regular, _, _, rfl, by simp [hparams], rfl, by decide +kernel⟩

end Checker

end JavaGenerics
