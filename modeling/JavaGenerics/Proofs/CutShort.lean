import JavaGenerics.Proofs.Containment

/-!
# Programs cut short

A program that runs under a limit is the same program as without it, except that some of its
branches end early.  Whether two runs under different limits agree is a question about nothing but
those branches.

* `Query.CutOf` — one question is another one with some branches cut short, each by an error that
  says so.  **A cut that is not met makes no difference** (`CutOf.run_short`), and through a cache
  it makes none to the cache either (`CutOf.answer_eq`), for the look-ups are the same.
* `Milder` — limits under which chains of variables are followed at least as far.
* `Milder.decisions` — **with no more fuel and under limits that are no milder, walking, assigning
  and containing are the same programs cut short.**
* `Checker.milder_of_eq` — limits that differ in the limit on depth only are milder than each other,
  so nothing but that limit can come in between.

Up to `Milder.decisions` it is one lemma for each rule: if what a rule asks one level down is cut
short, then so is the rule.
-/

namespace JavaGenerics

/-! ## Cutting short -/

/-- The error reports that a limit was met. -/
inductive DeclError.IsLimit : DeclError → Prop
  | nested (limit : Nat) : IsLimit (.nestedTooDeep limit)
  | chain (varName : String) (limit : Nat) : IsLimit (.longVariableChain varName limit)

/-- A result is the other one, or an error that stops the program. -/
def ShortOf {α : Type} (stops : DeclError → Prop) (r r' : Except DeclError α) : Prop :=
  r = r' ∨ ∃ e, r = .error e ∧ stops e

namespace ShortOf

variable {α β : Type} {stops : DeclError → Prop}

lemma refl (r : Except DeclError α) : ShortOf stops r r :=
  Or.inl rfl

lemma stopped {e : DeclError} (h : stops e) (r : Except DeclError α) :
    ShortOf stops (.error e) r :=
  Or.inr ⟨e, rfl, h⟩

lemma bind {r r' : Except DeclError α} {f f' : α → Except DeclError β} (h : ShortOf stops r r')
    (hnext : ∀ a, ShortOf stops (f a) (f' a)) : ShortOf stops (r >>= f) (r' >>= f') := by
  rcases h with rfl | ⟨e, rfl, he⟩
  · cases r with
    | ok a => exact hnext a
    | error e => exact .refl _
  · exact .stopped he _

lemma map {r r' : Except DeclError α} (h : ShortOf stops r r') (f : α → β) :
    ShortOf stops (r.map f) (r'.map f) := by
  rcases h with rfl | ⟨e, rfl, he⟩
  · exact .refl _
  · exact .stopped he _

end ShortOf

namespace Query

variable {α β : Type} {stops : DeclError → Prop}

/-- The one question is the other, with some branches cut short by an error that stops it. -/
inductive CutOf (stops : DeclError → Prop) : Query α → Query α → Prop
  | stopped {e : DeclError} (h : stops e) (q : Query α) : CutOf stops (.fail e) q
  | done (a : α) : CutOf stops (.done a) (.done a)
  | fail (e : DeclError) : CutOf stops (.fail e) (.fail e)
  | lookup (id : ClassId) {next next' : Edges → Query α}
      (h : ∀ edges, CutOf stops (next edges) (next' edges)) :
      CutOf stops (.lookup id next) (.lookup id next')

namespace CutOf

lemma refl (q : Query α) : CutOf stops q q := by
  induction q with
  | done a => exact .done a
  | fail e => exact .fail e
  | lookup id next ih => exact .lookup id ih

lemma bind {q q' : Query α} {f f' : α → Query β} (h : CutOf stops q q')
    (hnext : ∀ a, CutOf stops (f a) (f' a)) : CutOf stops (q >>= f) (q' >>= f') := by
  induction h with
  | stopped he q => exact .stopped he _
  | done a => exact hnext a
  | fail e => exact .fail e
  | lookup id _ ih => exact .lookup id ih

lemma lift {r r' : Except DeclError α} (h : ShortOf stops r r') :
    CutOf stops (liftM r : Query α) (liftM r') := by
  rcases h with rfl | ⟨e, rfl, he⟩
  · exact .refl _
  · exact .stopped he _

lemma ite {c : Prop} [Decidable c] {p p' q q' : Query α} (hp : CutOf stops p p')
    (hq : CutOf stops q q') : CutOf stops (if c then p else q) (if c then p' else q') := by
  split
  · exact hp
  · exact hq

lemma map {q q' : Query α} (h : CutOf stops q q') (f : α → β) :
    CutOf stops (f <$> q) (f <$> q') := by
  simpa only [map_eq_pure_bind] using h.bind fun a => .refl (pure (f a))

/-- Answered through a cache, a question that is not stopped yields what the full one yields, and
leaves the same cache behind. -/
lemma answer_eq {q q' : Query α} (h : CutOf stops q q')
    (source : ClassId → Except DeclError Edges) : ∀ cache : EdgeCache,
    (∃ e, (EdgeCache.answer source q cache).1 = .error e ∧ stops e) ∨
      EdgeCache.answer source q cache = EdgeCache.answer source q' cache := by
  induction h with
  | stopped he q => exact fun _ => Or.inl ⟨_, rfl, he⟩
  | done a => exact fun _ => Or.inr rfl
  | fail e => exact fun _ => Or.inr rfl
  | lookup id _ ih =>
      intro cache
      simp only [EdgeCache.answer]
      rcases cache.fetch id (source id) with ⟨_ | edges, cache⟩
      · exact Or.inr rfl
      · exact ih edges cache

/-- Answered from a source, a question that is not stopped yields what the full one yields. -/
lemma run_short {q q' : Query α} (h : CutOf stops q q')
    (source : ClassId → Except DeclError Edges) : ShortOf stops (q.run source) (q'.run source) := by
  induction h with
  | stopped he q => exact .stopped he _
  | done a => exact .refl _
  | fail e => exact .refl _
  | lookup id _ ih =>
      simp only [run]
      cases source id with
      | ok edges => exact ih edges
      | error e => exact .refl _

/-- What succeeds although it is cut short succeeds alike in full. -/
lemma run_eq_ok {q q' : Query α} (h : CutOf stops q q') {source : ClassId → Except DeclError Edges}
    {a : α} (hok : q.run source = .ok a) : q'.run source = .ok a := by
  rcases h.run_short source with hsame | ⟨e, herror, -⟩
  · exact hsame.symm.trans hok
  · exact absurd (herror.symm.trans hok) (by simp)

end CutOf

end Query

/-! ## The rules, cut short -/

/-- Chains are followed at least as far under the second limits as under the first, and meeting the
first limit on depth stops a program. -/
structure Milder (store : Store) (stops : DeclError → Prop) (a b : Limits) : Prop where
  nested : stops (.nestedTooDeep a.maxDepth)
  follow : ∀ v map,
    ShortOf stops ((Checker.mk store a).follow v map) ((Checker.mk store b).follow v map)

namespace Milder

open Checker Query

variable {store : Store} {stops : DeclError → Prop} {a b : Limits}

section Substitution

variable (h : Milder store stops a b)

include h

lemma endOfChain (v : TypeVarId) (map : Bindings) :
    ShortOf stops ((Checker.mk store a).endOfChain v map)
      ((Checker.mk store b).endOfChain v map) :=
  (h.follow v map).bind fun _ => .refl _

lemma replaceVar (v : TypeVarId) (map : Bindings) :
    ShortOf stops ((Checker.mk store a).replaceVar v map)
      ((Checker.mk store b).replaceVar v map) :=
  (h.follow v map).bind fun _ => .refl _

lemma instantiate (context : Option Bindings) (ty : Ty) :
    ShortOf stops ((Checker.mk store a).instantiate context ty)
      ((Checker.mk store b).instantiate context ty) := by
  cases ty with
  | var v =>
      cases context with
      | none => exact .refl _
      | some map => exact h.replaceVar v map
  | _ => exact .refl _

lemma instantiate? (context : Option Bindings) (ty : Option Ty) :
    ShortOf stops ((Checker.mk store a).instantiate? context ty)
      ((Checker.mk store b).instantiate? context ty) := by
  cases ty with
  | none => exact .refl _
  | some ty => exact (h.instantiate context ty).map some

end Substitution

mutual

theorem substWithin (h : Milder store stops a b) (map : Bindings) : ∀ {fuel fuel' : Nat}, fuel ≤ fuel' → ∀ ty : Ty,
    ShortOf stops ((Checker.mk store a).substWithin map fuel ty)
      ((Checker.mk store b).substWithin map fuel' ty)
  | 0, _, _, ty => by
    rw [Checker.substWithin]
    exact .stopped h.nested _
  | fuel + 1, 0, hfuel, _ => absurd hfuel (by omega)
  | fuel + 1, fuel' + 1, hfuel, ty => by
    have hle : fuel ≤ fuel' := Nat.le_of_succ_le_succ hfuel
    cases ty with
    | cls id => exact .refl _
    | var v => exact h.replaceVar v map
    | applied raw args owner =>
        simp only [Checker.substWithin]
        exact (substAllWithin h map hle args).bind fun _ =>
          (substOwnerWithin h map hle owner).bind fun _ => .refl _
    | wildcard upper lower =>
        simp only [Checker.substWithin]
        exact (substAllWithin h map hle upper).bind fun _ =>
          (substAllWithin h map hle lower).bind fun _ => .refl _
    | array component =>
        simp only [Checker.substWithin]
        exact (substWithin h map hle component).bind fun _ => .refl _

theorem substAllWithin (h : Milder store stops a b) (map : Bindings) : ∀ {fuel fuel' : Nat}, fuel ≤ fuel' →
    ∀ types : List Ty, ShortOf stops ((Checker.mk store a).substAllWithin map fuel types)
      ((Checker.mk store b).substAllWithin map fuel' types)
  | _, _, _, [] => by simpa only [Checker.substAllWithin] using .refl _
  | _, _, hfuel, ty :: rest => by
    simp only [Checker.substAllWithin]
    exact (substWithin h map hfuel ty).bind fun _ =>
      (substAllWithin h map hfuel rest).bind fun _ => .refl _

theorem substOwnerWithin (h : Milder store stops a b) (map : Bindings) : ∀ {fuel fuel' : Nat}, fuel ≤ fuel' →
    ∀ owner : Option Ty, ShortOf stops ((Checker.mk store a).substOwnerWithin map fuel owner)
      ((Checker.mk store b).substOwnerWithin map fuel' owner)
  | _, _, _, none => by simpa only [Checker.substOwnerWithin] using .refl _
  | _, _, hfuel, some owner => by
    simp only [Checker.substOwnerWithin]
    exact (substWithin h map hfuel owner).bind fun _ => .refl _

end

/-! ### Walking -/

section Walking

variable (h : Milder store stops a b) {walk walk' : WalkDown} {assign assign' : AssignDown}
  (hwalk : ∀ subject target map, (walk subject target map).CutOf stops (walk' subject target map))
  (hassign : ∀ source target context,
    (assign source target context).CutOf stops (assign' source target context))

include hwalk in
lemma walkParent (id target : ClassId) (map : Bindings) :
    ((Checker.mk store a).walkParent walk id target map).CutOf stops
      ((Checker.mk store b).walkParent walk' id target map) := by
  rw [Checker.walkParent, Checker.walkParent, parentToward_limits a b]
  refine .bind (.refl _) fun parent => ?_
  cases parent with
  | none => exact .refl _
  | some parent => exact hwalk parent target map

include hwalk in
lemma walkClass (id target : ClassId) (map : Bindings) :
    ((Checker.mk store a).walkClass walk id target map).CutOf stops
      ((Checker.mk store b).walkClass walk' id target map) := by
  rw [Checker.walkClass, Checker.walkClass, classConverts_limits a b]
  refine .bind (.refl _) fun converts => .ite ?_ (.refl _)
  dsimp only
  cases store.wellKnown.primitive? id with
  | none => exact .ite (.refl _) (walkParent hwalk id target map)
  | some p => exact .ite (.refl _) (.ite (.refl _) (walkParent hwalk _ target map))

include h in
lemma bindArguments (before : Bindings) {fuel fuel' : Nat} (hfuel : fuel ≤ fuel') :
    ∀ (params : List TypeVarId) (args : List Ty) (map : Bindings),
      ShortOf stops ((Checker.mk store a).bindArguments fuel before params args map)
        ((Checker.mk store b).bindArguments fuel' before params args map)
  | [], _, _ => by simpa only [Checker.bindArguments] using .refl _
  | _ :: _, [], _ => by simpa only [Checker.bindArguments] using .refl _
  | param :: params, arg :: args, map => by
    simp only [Checker.bindArguments]
    split
    · exact bindArguments before hfuel params args map
    · exact (h.substWithin before hfuel arg).bind fun value =>
        bindArguments before hfuel params args (map.bind param value)

include hwalk in
lemma walkOwner (owner : Option Ty) (map : Bindings) :
    (Checker.walkOwner walk owner map).CutOf stops (Checker.walkOwner walk' owner map) := by
  rcases owner with _ | ty
  · exact .refl _
  · cases ty with
    | applied raw args outer => exact (hwalk _ raw map).bind fun _ => .refl _
    | _ => exact .refl _

include h hwalk in
lemma walkApplied {fuel fuel' : Nat} (hfuel : fuel ≤ fuel') (raw : ClassId) (args : List Ty)
    (owner : Option Ty) (target : ClassId) (map : Bindings) :
    ((Checker.mk store a).walkApplied walk fuel raw args owner target map).CutOf stops
      ((Checker.mk store b).walkApplied walk' fuel' raw args owner target map) := by
  rw [Checker.walkApplied, Checker.walkApplied, classConverts_limits a b]
  refine .bind (.refl _) fun converts => .ite ?_ (.refl _)
  refine (walkOwner hwalk owner map).bind fun inherited => .bind (.refl _) fun edges => ?_
  refine .ite (.refl _) (.bind (.lift (h.bindArguments inherited hfuel _ _ _)) fun bound => ?_)
  exact .ite (.refl _) (walkParent hwalk raw target bound)

include hwalk hassign in
lemma walkBounds (target : ClassId) (map : Bindings) (bounds : List Ty) :
    (Checker.walkBounds walk assign target map bounds).CutOf stops
      (Checker.walkBounds walk' assign' target map bounds) := by
  induction bounds with
  | nil => exact .refl _
  | cons bound rest ih =>
      simp only [Checker.walkBounds]
      exact (hassign _ _ _).bind fun _ => .ite (hwalk bound target map) ih

include h hwalk hassign in
/-- **One step of the walk.** -/
lemma walkStep {fuel fuel' : Nat} (hfuel : fuel ≤ fuel') (subject : Ty) (target : ClassId)
    (map : Bindings) :
    ((Checker.mk store a).walkStep walk assign fuel subject target map).CutOf stops
      ((Checker.mk store b).walkStep walk' assign' fuel' subject target map) := by
  cases subject with
  | cls id => exact walkClass hwalk id target map
  | applied raw args owner => exact h.walkApplied hwalk hfuel raw args owner target map
  | var v => exact .bind (.refl _) fun bounds => walkBounds hwalk hassign target map bounds
  | wildcard upper lower => exact walkBounds hwalk hassign target map _
  | array component => exact .ite (.refl _) ((hassign _ _ _).bind fun _ => .refl _)

end Walking

/-! ### Assigning -/

section Assigning

variable (h : Milder store stops a b) {walk walk' : WalkDown} {assign assign' : AssignDown}
  {contain contain' : ContainDown}
  (hwalk : ∀ subject target map, (walk subject target map).CutOf stops (walk' subject target map))
  (hassign : ∀ source target context,
    (assign source target context).CutOf stops (assign' source target context))
  (hcontain : ∀ given upper lower context,
    (contain given upper lower context).CutOf stops (contain' given upper lower context))

include hassign in
lemma anyBound (target : Ty) (context : Option Bindings) (bounds : List Ty) :
    (Checker.anyBound assign target context bounds).CutOf stops
      (Checker.anyBound assign' target context bounds) := by
  induction bounds with
  | nil => exact .refl _
  | cons bound rest ih =>
      simp only [Checker.anyBound]
      exact (hassign _ _ _).bind fun _ => .ite (.refl _) ih

include hassign in
lemma assignToClass (source : Option Ty) (target : ClassId) :
    ((Checker.mk store a).assignToClass assign source target).CutOf stops
      ((Checker.mk store b).assignToClass assign' source target) := by
  rcases source with _ | source
  · exact .refl _
  · cases source with
    | cls id =>
        simp only [Checker.assignToClass, classConverts_limits a b]
        exact .refl _
    | applied raw args owner =>
        simp only [Checker.assignToClass, classConverts_limits a b]
        exact .refl _
    | var v => exact .bind (.refl _) fun bounds => anyBound hassign _ none bounds
    | _ => exact .refl _

include h in
lemma foundArgument (param : TypeVarId) (map : Bindings) (subject : Ty) :
    ((Checker.mk store a).foundArgument param map subject).CutOf stops
      ((Checker.mk store b).foundArgument param map subject) :=
  .bind (.lift (h.follow param map)) fun _ => .refl _

include h hcontain in
lemma argumentsFit (source target : Ty) (sourceMap targetMap : Bindings)
    (context : Option Bindings) : ∀ params : List TypeVarId,
    ((Checker.mk store a).argumentsFit contain source target sourceMap targetMap context
        params).CutOf stops
      ((Checker.mk store b).argumentsFit contain' source target sourceMap targetMap context params)
  | [] => .refl _
  | param :: rest => by
    have hrest := argumentsFit source target sourceMap targetMap context rest
    simp only [Checker.argumentsFit]
    refine (h.foundArgument param targetMap target).bind fun wanted => ?_
    cases wanted with
    | none => exact hrest
    | some wanted =>
        refine (h.foundArgument param sourceMap source).bind fun given => ?_
        cases given with
        | none => exact hrest
        | some given =>
            refine .ite hrest ?_
            cases wanted with
            | wildcard upper lower => exact (hcontain _ _ _ _).bind fun _ => .ite hrest (.refl _)
            | _ => exact .refl _

include h hwalk hcontain in
lemma compareInstances (source target : Ty) (raw : ClassId) (context : Option Bindings) :
    ((Checker.mk store a).compareInstances walk contain source target raw context).CutOf stops
      ((Checker.mk store b).compareInstances walk' contain' source target raw context) := by
  refine (hwalk _ _ _).bind fun sourceMap? => ?_
  cases sourceMap? with
  | none => exact .refl _
  | some sourceMap =>
      refine (hwalk _ _ _).bind fun targetMap? => ?_
      cases targetMap? with
      | none => exact .refl _
      | some targetMap =>
          exact .bind (.refl _) fun edges =>
            h.argumentsFit hcontain source target sourceMap targetMap context edges.params

include h hwalk hcontain in
lemma assignToApplied (source : Option Ty) (target : Ty) (raw : ClassId)
    (context : Option Bindings) :
    ((Checker.mk store a).assignToApplied walk contain source target raw context).CutOf stops
      ((Checker.mk store b).assignToApplied walk' contain' source target raw context) := by
  rcases source with _ | source
  · exact .refl _
  · by_cases harray : source.isArray = true
    · cases source with
      | array component => exact .refl _
      | _ => simp [Ty.isArray] at harray
    · rw [assignToApplied_eq walk contain (by simpa using harray),
        assignToApplied_eq walk' contain' (by simpa using harray)]
      exact h.compareInstances hwalk hcontain source target raw context

include hassign in
lemma assignComponent (given wanted : Ty) (context : Option Bindings) :
    ((Checker.mk store a).assignComponent assign given wanted context).CutOf stops
      ((Checker.mk store b).assignComponent assign' given wanted context) :=
  .ite (.refl _) (.ite (.refl _) (.ite (.refl _) (hassign _ _ _)))

include hassign in
lemma assignToArray (source : Option Ty) (component : Ty) (context : Option Bindings) :
    ((Checker.mk store a).assignToArray assign source component context).CutOf stops
      ((Checker.mk store b).assignToArray assign' source component context) := by
  rcases source with _ | source
  · exact .refl _
  · cases source with
    | array given => exact assignComponent hassign given component context
    | wildcard upper lower => exact anyBound hassign _ none _
    | var v => exact .bind (.refl _) fun bounds => anyBound hassign _ none bounds
    | _ => exact .refl _

include h hassign in
lemma assignToBinding (source : Ty) (target : TypeVarId) (map : Bindings) :
    ((Checker.mk store a).assignToBinding assign source target map).CutOf stops
      ((Checker.mk store b).assignToBinding assign' source target map) := by
  refine (CutOf.lift (h.endOfChain target map)).bind fun ended => ?_
  cases ended with
  | none => exact .refl _
  | some ended => exact hassign _ _ _

include h hassign in
lemma assignToVar (source : Option Ty) (target : TypeVarId) (context : Option Bindings) :
    ((Checker.mk store a).assignToVar assign source target context).CutOf stops
      ((Checker.mk store b).assignToVar assign' source target context) := by
  rcases source with _ | source
  · exact .refl _
  · have hbinding (map : Bindings) := h.assignToBinding hassign source target map
    simp only [Checker.assignToVar]
    cases source with
    | var v =>
        refine .bind (.refl _) fun bounds => (anyBound hassign _ context bounds).bind fun _ => ?_
        cases context with
        | none => exact .ite (.refl _) (.refl _)
        | some map => exact .ite (.refl _) (hbinding map)
    | _ =>
        cases context with
        | none => exact .refl _
        | some map => exact .bind (.refl _) fun _ => .ite (.refl _) (hbinding map)

include h hwalk hassign hcontain in
/-- **One step of assignability.** -/
lemma assignStep (source : Option Ty) (target : Ty) (context : Option Bindings) :
    ((Checker.mk store a).assignStep walk assign contain source target context).CutOf stops
      ((Checker.mk store b).assignStep walk' assign' contain' source target context) := by
  refine .ite (.refl _) ?_
  cases target with
  | cls id => exact assignToClass hassign source id
  | applied raw args owner => exact h.assignToApplied hwalk hcontain source _ raw context
  | array component => exact assignToArray hassign source component context
  | wildcard upper lower => exact .refl _
  | var v => exact h.assignToVar hassign source v context

/-! ### Containing -/

include hassign in
lemma assignLower (source target : Option Ty) (context : Option Bindings) :
    (Checker.assignLower assign source target context).CutOf stops
      (Checker.assignLower assign' source target context) := by
  cases target with
  | none => exact .refl _
  | some target => exact hassign _ _ _

include hassign in
lemma allAssignTo (target : Ty) (context : Option Bindings) (sources : List Ty) :
    (Checker.allAssignTo assign target context sources).CutOf stops
      (Checker.allAssignTo assign' target context sources) := by
  induction sources with
  | nil => exact .refl _
  | cons source rest ih =>
      simp only [Checker.allAssignTo]
      exact (hassign _ _ _).bind fun _ => .ite ih (.refl _)

include h hassign in
lemma withinUpper (sources : List Ty) (context : Option Bindings) (bounds : List Ty) :
    ((Checker.mk store a).withinUpper assign sources context bounds).CutOf stops
      ((Checker.mk store b).withinUpper assign' sources context bounds) := by
  induction bounds with
  | nil => exact .refl _
  | cons bound rest ih =>
      simp only [Checker.withinUpper]
      exact .bind (.lift (h.instantiate context bound)) fun _ =>
        (allAssignTo hassign _ context sources).bind fun _ => .ite ih (.refl _)

include hassign in
lemma assignToAllLower (source : Option Ty) (context : Option Bindings)
    (targets : List (Option Ty)) :
    (Checker.assignToAllLower assign source context targets).CutOf stops
      (Checker.assignToAllLower assign' source context targets) := by
  induction targets with
  | nil => exact .refl _
  | cons target rest ih =>
      simp only [Checker.assignToAllLower]
      exact (assignLower hassign source target context).bind fun _ => .ite ih (.refl _)

include h hassign in
lemma withinLower (targets : List (Option Ty)) (context : Option Bindings)
    (bounds : List (Option Ty)) :
    ((Checker.mk store a).withinLower assign targets context bounds).CutOf stops
      ((Checker.mk store b).withinLower assign' targets context bounds) := by
  induction bounds with
  | nil => exact .refl _
  | cons bound rest ih =>
      simp only [Checker.withinLower]
      exact .bind (.lift (h.instantiate? context bound)) fun _ =>
        (assignToAllLower hassign _ context targets).bind fun _ => .ite ih (.refl _)

include h hassign in
/-- **One step of containment.** -/
lemma containStep (given : Ty) (upper lower : List Ty) (context : Option Bindings) :
    ((Checker.mk store a).containStep assign given upper lower context).CutOf stops
      ((Checker.mk store b).containStep assign' given upper lower context) := by
  have hboth (above : List Ty) (below : List (Option Ty)) :=
    (h.withinUpper hassign above context ((Checker.mk store b).upperBounds upper)).bind fun within =>
      CutOf.ite (c := within = true)
        (h.withinLower hassign below context (Checker.lowerBounds lower)) (.refl (pure false))
  cases given with
  | wildcard givenUpper givenLower => exact .ite (.refl _) (hboth _ _)
  | _ => exact hboth _ _

end Assigning

/-! ## The recursion, cut short -/

/-- **With no more fuel and under limits that are no higher, each of the three programs is the other
one cut short.**  The induction is on the smaller amount of fuel. -/
theorem decisions (h : Milder store stops a b) : ∀ {fuel fuel' : Nat}, fuel ≤ fuel' →
    (∀ subject target map, ((Checker.mk store a).walkWithin fuel subject target map).CutOf stops
      ((Checker.mk store b).walkWithin fuel' subject target map)) ∧
    (∀ source target context,
      ((Checker.mk store a).assignWithin fuel source target context).CutOf stops
        ((Checker.mk store b).assignWithin fuel' source target context)) ∧
    (∀ given upper lower context,
      ((Checker.mk store a).containWithin fuel given upper lower context).CutOf stops
        ((Checker.mk store b).containWithin fuel' given upper lower context))
  | 0, fuel', _ => by
    simp only [containWithin_eq, walkWithin, assignWithin]
    exact ⟨fun _ _ _ => .stopped h.nested _, fun _ _ _ => .stopped h.nested _,
      h.containStep fun _ _ _ => .stopped h.nested _⟩
  | fuel + 1, 0, hfuel => absurd hfuel (by omega)
  | fuel + 1, fuel' + 1, hfuel => by
    obtain ⟨hwalk, hassign, hcontain⟩ := decisions h (Nat.le_of_succ_le_succ hfuel)
    simp only [walkWithin, assignWithin, containWithin]
    exact ⟨h.walkStep hwalk hassign (Nat.le_of_succ_le_succ hfuel),
      h.assignStep hwalk hassign hcontain, h.containStep hassign⟩

end Milder

/-! ## Limits on depth alone -/

namespace Checker

variable {store : Store} {a b : Limits}

/-- Chains of variables are followed alike, however deep a walk may go. -/
lemma followFrom_congr (hchain : a.maxVariableChain = b.maxVariableChain) (map : Bindings)
    (start : TypeVarId) : ∀ (hops : Nat) (visited : List TypeVarId) (current : TypeVarId),
      (Checker.mk store a).followFrom map start hops visited current =
        (Checker.mk store b).followFrom map start hops visited current
  | hops, visited, current => by
    unfold followFrom
    cases map.get? current with
    | none => rfl
    | some ty =>
        cases ty with
        | var next =>
            cases hops with
            | zero => simp only [hchain]
            | succ hops =>
                dsimp only
                split
                · rfl
                · exact followFrom_congr hchain map start hops _ next
        | _ => rfl

/-- Only the limit on depth can stop the one checker where the other one goes on. -/
lemma milder_of_eq (store : Store) (hchain : a.maxVariableChain = b.maxVariableChain) :
    Milder store (· = .nestedTooDeep a.maxDepth) a b where
  nested := rfl
  follow v map := by
    simp only [follow, followFrom_congr hchain, hchain]
    exact .refl _

end Checker

end JavaGenerics
