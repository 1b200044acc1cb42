import JavaGenerics.Application
import JavaGenerics.Proofs.Views

/-!
# Fields of nested classes

What a nested class declares may mention the parameters of the class around it.  An instance of the
nested class comes with an owner that says what these stand for, and any subtype of the enclosing
class will do as one.  **A walk looks at the owner's own arguments only**, though: it does not go on
from the owner to the class that encloses the nested one.

* `Checker.yields_viewAs_nested` — what a walk from an instance of a nested class binds: the
  parameters of its owner's class, and its own.
* `Checker.answer_fieldSeenFrom_nested` — so a field is seen with these put in, and that is the
  owner's view of the enclosing class **exactly if the owner's class is the enclosing one, or the
  field asks for nothing that the view knows.**
* `Checker.key_of_hashMap_entry` — the key of an entry of a `HashMap<String, Integer>` is seen as
  the parameter of `Map`, which that owner is known to bind to `String`.
-/

namespace JavaGenerics

open Relation

namespace Store

variable {store : Store} {inner enclosing id : ClassId} {decl : ClassDecl} {owner : Ty}
  {args : List Ty}

/-! ## Instances of nested classes -/

/-- A nested class that has been applied has the owner it was given, which may own it. -/
lemma of_applyClass (hdecl : store.class? inner = some decl)
    (henclosing : decl.enclosing = some enclosing) {context : Ty}
    (h : store.applyClass (some owner) inner args = .ok context) :
    context = .applied inner args (some owner) ∧ args.length = (store.paramsOf inner).length ∧
      store.mayOwn owner enclosing = .ok true := by
  simp only [applyClass, knownClass, hdecl, ok_bind, bind_eq_ok] at h
  obtain ⟨owner?, howner, h⟩ := h
  simp only [ownerOf, henclosing, bind_eq_ok] at howner
  obtain ⟨owns, howns, howner⟩ := howner
  cases owns with
  | false => simp [throw, throwThe, MonadExceptOf.throw] at howner
  | true =>
      obtain rfl : some owner = owner? := by simpa using howner
      rw [paramsOf_eq hdecl]
      split at h
      · simp [throw, throwThe, MonadExceptOf.throw] at h
      · rename_i hlength
        exact ⟨by simpa using h.symm, (not_not.mp hlength).symm, howns⟩

/-- What may own instances of a class nested in `enclosing` is below `enclosing`. -/
lemma below_of_mayOwn (hnom : store.Nominal) (hraw : owner.rawClass? = some id)
    (hid : store.Reference id) (henclosing : store.wellKnown.isPrimitive enclosing = false)
    (h : store.mayOwn owner enclosing = .ok true) : store.Below id enclosing := by
  obtain ⟨below, hbelow, hiff⟩ :=
    @Checker.answer_classConverts { store := store } hnom _ _ hid.1 hid.2 henclosing
  simp only [mayOwn, hraw, hbelow, Except.ok.injEq] at h
  exact hiff.mp h

/-- What an instance of a nested class binds: the parameters of the owner's class, and its own. -/
def bindOwned (store : Store) (id : ClassId) (owner : Ty) (inner : ClassId) (args : List Ty) :
    Bindings :=
  (Bindings.empty.bindAll (store.paramsOf id) owner.args).bindAll (store.paramsOf inner) args

lemma get?_bindOwned (hwalk : store.Walkable) (v : TypeVarId) :
    (store.bindOwned id owner inner args).get? v =
      (store.assigning inner args v).or (store.assigning id owner.args v) := by
  rw [bindOwned, Bindings.get?_bindAll _ _ (hwalk.params_nodup inner),
    Bindings.get?_bindAll _ _ (hwalk.params_nodup id), Bindings.get?_empty, Option.or_none]
  rfl

lemma assigning_eq_none {v : TypeVarId} (hv : v ∉ store.paramsOf id) (args : List Ty) :
    store.assigning id args v = none :=
  Bindings.lookup_zip_eq_none args hv

/-- What is bound has no variables if the arguments have none. -/
lemma ground_of_get?_bindOwned (hwalk : store.Walkable) (hargs : Ty.varsAll args = [])
    (howner : Ty.varsAll owner.args = []) {v : TypeVarId} {ty : Ty}
    (h : (store.bindOwned id owner inner args).get? v = some ty) : ty.Ground := by
  rw [get?_bindOwned hwalk, Option.or_eq_some_iff] at h
  rcases h with h | ⟨-, h⟩
  · exact Ty.varsAll_eq_nil.mp hargs ty (mem_of_assigning h).2
  · exact Ty.varsAll_eq_nil.mp howner ty (mem_of_assigning h).2

end Store

namespace Checker

variable {checker : Checker}

/-! ## What their walks bind -/

/-- **The owner of an instance binds its own arguments**, where it has no owner itself. -/
lemma yields_walkOwner_of_fits {owner : Ty} {id : ClassId} (hfits : checker.store.FitsClass owner id)
    (hground : Ty.varsAll owner.args = []) (fuel : Nat) :
    checker.Yields (fuel ≤ owner.nesting)
      (checker.answer (walkOwner (checker.walkWithin fuel) (some owner) .empty))
      (Bindings.empty.bindAll (checker.store.paramsOf id) owner.args) := by
  obtain ⟨hraw, ⟨hknown, -⟩, howner, hlength⟩ := hfits
  cases owner with
  | cls raw =>
      simp only [Ty.args, Bindings.bindAll_nil]
      exact .ok _
  | applied raw args outer =>
      obtain rfl := Option.some.inj hraw
      obtain rfl : outer = none := howner
      refine (checker.yields_walkOwner fuel (some (.app raw args)) fun _ _ _ hmem => ?_).mono
        Nat.le_of_lt_succ
      obtain ⟨rfl, rfl, -⟩ := Ty.applied.inj (List.mem_singleton.mp hmem)
      exact ⟨hknown, hlength, hground⟩
  | _ => exact absurd hraw (by simp [Ty.rawClass?])

/-- **A walk from an instance of a nested class binds its parameters, and those of its owner's
class.** -/
theorem yields_viewAs_nested {owner : Ty} {inner id : ClassId} {args : List Ty}
    (hinner : checker.store.Knows inner)
    (hlength : args.length = (checker.store.paramsOf inner).length) (hargs : Ty.varsAll args = [])
    (hfits : checker.store.FitsClass owner id) (hground : Ty.varsAll owner.args = []) :
    checker.Yields (checker.limits.maxDepth < (Ty.applied inner args (some owner)).nesting)
      (checker.answer (checker.viewAs (.applied inner args (some owner)) inner .empty))
      (some (checker.store.bindOwned id owner inner args)) := by
  obtain ⟨decl, hdecl⟩ := hinner
  have hconverts : checker.answer (checker.classConverts inner inner) = .ok true := by
    simp [classConverts]
  have hparams : decl.edges.params = checker.store.paramsOf inner := (Store.paramsOf_eq hdecl).symm
  have howner := (yields_walkOwner_of_fits hfits hground checker.limits.maxDepth).mono
    fun hlate => show checker.limits.maxDepth < (Ty.applied inner args (some owner)).nesting by
      rw [Ty.nesting, Ty.nestingOwner]
      omega
  have hbind (before : Bindings) :=
    (checker.yields_bindArguments checker.limits.maxDepth hlength.symm hargs before before).mono
      fun hlate => show checker.limits.maxDepth < (Ty.applied inner args (some owner)).nesting by
        rw [Ty.nesting]
        omega
  simp only [viewAs, fuel, walkWithin, walkStep, walkApplied, answer_bind, hconverts, ok_bind,
    if_true, answer_edgesOf, checker.edgesFromStore_of_class hdecl, hparams,
    if_neg (not_not_intro hlength.symm), answer_lift, answer_pure]
  exact howner.bind ((hbind _).bind (.ok _))

/-- **An expression of a nested class is seen with these put in**, all at once. -/
lemma yields_seenFrom_nested (hwalk : checker.store.Walkable) {owner : Ty} {inner id : ClassId}
    {args : List Ty} (hinner : checker.store.Knows inner)
    (hlength : args.length = (checker.store.paramsOf inner).length) (hargs : Ty.varsAll args = [])
    (hfits : checker.store.FitsClass owner id) (hground : Ty.varsAll owner.args = [])
    (expression : Ty) :
    checker.Yields
      (checker.limits.maxDepth <
        max (Ty.applied inner args (some owner)).nesting expression.nesting)
      (checker.answer (checker.seenFrom (.applied inner args (some owner)) inner expression))
      (expression.subst fun v => (checker.store.assigning inner args v).or
        (checker.store.assigning id owner.args v)) := by
  have hview := yields_viewAs_nested hinner hlength hargs hfits hground
  have hsettles : checker.Settles (checker.store.bindOwned id owner inner args)
      expression.vars := by
    intro v _
    cases hget : (checker.store.bindOwned id owner inner args).get? v with
    | none => exact checker.replaceVar_of_none hget
    | some ty =>
        have hty := Store.ground_of_get?_bindOwned hwalk hargs hground hget
        exact checker.replaceVar_of_get? hget hty.var?_eq_none
  have hsubst := checker.substWithin_of_settles _ checker.fuel expression hsettles
  rw [show (checker.store.bindOwned id owner inner args).get? = _ from
    funext fun v => Store.get?_bindOwned hwalk v] at hsubst
  simp only [seenFrom, answer_bind]
  refine (hview.mono lt_max_of_lt_left).bind ?_
  simp only [answer_lift, substitute, hsubst]
  split
  · exact .ok _
  · rename_i hdeep
    refine .of_late (lt_max_of_lt_right ?_)
    rw [fuel] at hdeep
    omega

/-! ## The owner's view -/

/-- **When what the owner's class binds is its view of the enclosing class**: with regard to a type
in the parameters of both, if the two classes are the same or there is nothing to see. -/
lemma subst_owner_iff (hwalk : checker.store.Walkable) {owner ty : Ty}
    {inner enclosing id : ClassId} {args : List Ty} {levels : List (ClassId × List Ty)}
    (hlength : args.length = (checker.store.paramsOf inner).length)
    (hclass : checker.isPrimitive enclosing = false) (hfits : checker.store.FitsClass owner id)
    (hground : Ty.varsAll owner.args = []) (hbelow : checker.store.Below id enclosing)
    (hascent : checker.store.Ascent enclosing id owner.args levels)
    (hvars : ∀ v ∈ ty.vars,
      v ∈ checker.store.paramsOf enclosing ∨ v ∈ checker.store.paramsOf inner) :
    ty.subst (fun v => (checker.store.assigning inner args v).or
          (checker.store.assigning id owner.args v)) =
        ty.subst (fun v => (checker.store.assigning inner args v).or
          ((checker.store.bindLevels .empty levels).get? v)) ↔
      id = enclosing ∨ ∀ v ∈ ty.vars, v ∈ checker.store.paramsOf enclosing →
        v ∈ checker.store.paramsOf inner ∨
          (checker.store.bindLevels .empty levels).get? v = none := by
  by_cases hsame : id = enclosing
  · subst hsame
    refine iff_of_true (Ty.subst_congr ty fun v _ => ?_) (Or.inl rfl)
    rw [hascent.unique (.arrive owner.args), Store.bindLevels, Store.bindLevels,
      Bindings.get?_bindAll _ _ (hwalk.params_nodup id), Bindings.get?_empty, Option.or_none]
    rfl
  -- The owner's own parameters are none of those of the enclosing class.
  have hforeign {v : TypeVarId} (hv : v ∈ checker.store.paramsOf enclosing) :
      checker.store.assigning id owner.args v = none :=
    Store.assigning_eq_none (fun hid => hwalk.params_disjoint id enclosing hsame hid hv) _
  simp only [hsame, false_or]
  constructor
  · intro heq v hv henclosing
    by_cases hinner : v ∈ checker.store.paramsOf inner
    · exact Or.inl hinner
    refine Or.inr ?_
    have hkept := (Ty.subst_eq_iff ty).mp heq v hv
    rw [Store.assigning_eq_none hinner, hforeign henclosing, Option.or_none, Option.none_or,
      Option.getD_none] at hkept
    cases hget : (checker.store.bindLevels .empty levels).get? v with
    | none => rfl
    | some found =>
        -- What the view binds has no variables, so it is not the variable itself.
        obtain ⟨level, hlevel, hassigned⟩ :=
          (hascent.get?_bindLevels_iff hwalk hclass hfits.2.1.1 hbelow v found).mp hget
        have hfound := Ty.varsAll_eq_nil.mp
          ((hascent.sees hwalk hclass hfits.2.1.1 hbelow level hlevel).ground hwalk hfits.2.2.2
            hground) found (Store.mem_of_assigning hassigned).2
        rw [hget, Option.getD_some] at hkept
        simp [← hkept, Ty.Ground, Ty.vars] at hfound
  · intro hnone
    refine Ty.subst_congr ty fun v hv => ?_
    by_cases hinner : v ∈ checker.store.paramsOf inner
    · obtain ⟨arg, harg⟩ := Store.exists_assigning hlength hinner
      rw [harg, Option.some_or, Option.some_or]
    · have henclosing := (hvars v hv).resolve_right hinner
      rw [hforeign henclosing, (hnone v hv henclosing).resolve_left hinner]

/-- **How a field of a nested class is seen from an instance with an owner.**  Its parameters are
replaced by the arguments, and those of the owner's class by the owner's arguments.  That the
parameters of the *enclosing* class are replaced by what the owner, seen as an instance of it, binds
them to, holds exactly if the owner's class is the enclosing class, or if the type of the field
mentions none of those that are bound.  An owner of any other class below it is accepted too, and
then they are left as they are. -/
theorem answer_fieldSeenFrom_nested (checker : Checker) (hwalk : checker.store.Walkable)
    {inner enclosing id : ClassId} {decl : ClassDecl} {field : Field} {name : String}
    {owner context : Ty} {args : List Ty} (hdecl : checker.store.class? inner = some decl)
    (henclosing : decl.enclosing = some enclosing) (hclass : checker.isPrimitive enclosing = false)
    (hfits : checker.store.FitsClass owner id) (hground : Ty.varsAll owner.args = [])
    (hargs : Ty.varsAll args = [])
    (hcontext : checker.store.applyClass (some owner) inner args = .ok context)
    (hfield : decl.field? name = some field)
    (hvars : ∀ v ∈ field.ty.vars,
      v ∈ checker.store.paramsOf enclosing ∨ v ∈ checker.store.paramsOf inner) :
    let ofOwner := fun v =>
      (checker.store.assigning inner args v).or (checker.store.assigning id owner.args v)
    ∃ view : Bindings,
      checker.Yields (checker.limits.maxDepth <
          checker.store.size + max (Ty.deepest owner.args) (Ty.deepest checker.store.edgeArgs))
        (checker.answer (checker.viewAs owner enclosing .empty)) (some view) ∧
      checker.Yields (checker.limits.maxDepth < max context.nesting field.ty.nesting)
        (checker.answer (checker.fieldSeenFrom context inner name))
        (some (field.ty.subst ofOwner)) ∧
      (field.ty.subst ofOwner = field.ty.subst (fun v =>
          (checker.store.assigning inner args v).or (view.get? v)) ↔
        id = enclosing ∨ ∀ v ∈ field.ty.vars, v ∈ checker.store.paramsOf enclosing →
          v ∈ checker.store.paramsOf inner ∨ view.get? v = none) := by
  intro ofOwner
  obtain ⟨rfl, hlength, howns⟩ := Store.of_applyClass hdecl henclosing hcontext
  have hbelow := Store.below_of_mayOwn hwalk.nominal hfits.1 hfits.2.1 hclass howns
  obtain ⟨levels, hascent, -⟩ := hwalk.exists_ascent hclass _ owner.args (Nat.lt_succ_self _)
    hfits.2.1.1 hbelow
  have hview := checker.yields_walkWithin_of_applies hwalk (.of_ground hfits hground .empty) hclass
    hbelow hascent checker.fuel
    ((Ty.nestingAll_le_deepest _).trans (Nat.succ_le_succ (Nat.le_max_left _ _)))
    (Nat.le_max_right _ _)
  have hseen :=
    yields_seenFrom_nested hwalk ⟨decl, hdecl⟩ hlength hargs hfits hground field.ty
  refine ⟨_, hview, ?_, subst_owner_iff hwalk hlength hclass hfits hground hbelow hascent hvars⟩
  have hknown : checker.store.knownClass inner = .ok decl := by simp [Store.knownClass, hdecl]
  simp only [fieldSeenFrom, answer_bind, answer_lift, hknown, ok_bind, hfield, map_eq_pure_bind]
  exact hseen.bind (.ok _)

end Checker

/-- The collection classes, with a field in `Map.Entry` that is declared as the key of the map. -/
def Store.keyedEntries : Store :=
  .modifyClass .collections ⟨31⟩ fun decl =>
    { decl with fields := [{ name := "key", ty := .var ⟨8⟩ }] }

theorem Store.keyedEntries_regular : Store.keyedEntries.Regular :=
  .of_isRegular (by decide +kernel)

namespace Checker

/-- From an entry of a `Map<String, Integer>` the key is seen as a `String`. -/
theorem key_of_map_entry :
    let checker : Checker := { store := .keyedEntries }
    let args := [Ty.cls checker.store.wellKnown.string, .cls checker.store.wellKnown.integer]
    let context := Ty.applied ⟨31⟩ args (some (.app ⟨30⟩ args))
    checker.store.applyClass (some (.app ⟨30⟩ args)) ⟨31⟩ args = .ok context ∧
      checker.answer (checker.fieldSeenFrom context ⟨31⟩ "key") =
        .ok (some (.cls checker.store.wellKnown.string)) := by
  intro checker args context
  refine ⟨rfl, ?_⟩
  obtain ⟨view, -, hkey, -⟩ := @answer_fieldSeenFrom_nested checker
    Store.keyedEntries_regular.toWalkable ⟨31⟩ ⟨30⟩ ⟨30⟩ _ { name := "key", ty := .var ⟨8⟩ } "key"
    (.app ⟨30⟩ args) context args rfl rfl rfl ⟨rfl, ⟨⟨_, rfl⟩, rfl⟩, rfl, rfl⟩ rfl rfl rfl rfl
    (by decide +kernel)
  exact hkey.resolve_right fun hlate => absurd hlate.2 (by decide +kernel)

/-- From an entry of a `HashMap<String, Integer>` the key is seen as the parameter of `Map`,
although a `HashMap<String, Integer>` may own entries and is known to bind that parameter to
`String`. -/
theorem key_of_hashMap_entry :
    let checker : Checker := { store := .keyedEntries }
    let args := [Ty.cls checker.store.wellKnown.string, .cls checker.store.wellKnown.integer]
    let owner := Ty.app ⟨32⟩ args
    let context := Ty.applied ⟨31⟩ args (some owner)
    checker.store.applyClass (some owner) ⟨31⟩ args = .ok context ∧
      (∃ view, checker.answer (checker.viewAs owner ⟨30⟩ .empty) = .ok (some view) ∧
        view.get? ⟨8⟩ = some (.cls checker.store.wellKnown.string)) ∧
      checker.answer (checker.fieldSeenFrom context ⟨31⟩ "key") = .ok (some (.var ⟨8⟩)) :=
  ⟨rfl, ⟨_, rfl, rfl⟩, rfl⟩

end Checker

end JavaGenerics
