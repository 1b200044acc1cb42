import JavaGenerics.Proofs.CutShort

/-!
# Vocabularies

Which types can turn up while types are compared?  Not only those that were written down: a walk
puts arguments in for parameters, and bounds in for variables.  A *vocabulary* says what may occur
in types so that nothing else turns up.

* `Vocabulary` — classes and variables that may occur, and some restrictions that may be added.
* `Store.Written` — types in a vocabulary, relative to parameters that are sure to be replaced.
* `Store.WellFormed` — a store whose declarations stay within a vocabulary.
* `Bindings.Carries` — what a walk has recorded stays within it too.
* `Checker.ends_substWithin` — **replacing variables does not lead out of the vocabulary**, and goes
  wrong for the reasons of `Vocabulary.Expects` only.
-/

namespace JavaGenerics

/-- What may occur in types. -/
structure Vocabulary where
  classes : ClassId → Prop
  vars : TypeVarId → Prop
  /-- No parameter is left unreplaced: a class stands without arguments only if its supertypes do
  not mention its parameters, and the variables are no parameters of the classes. -/
  closed : Prop
  /-- No component of an array is a variable. -/
  solid : Prop
  /-- No class is nested in an owner. -/
  unnested : Prop

/-- The errors that types within a vocabulary may lead to. -/
def Vocabulary.Expects (voc : Vocabulary) (e : DeclError) : Prop :=
  e.IsLimit ∨ (¬ voc.closed ∧ ∃ varName, e = .cyclicVariable varName) ∨
    (¬ voc.solid ∧ ∃ wildcard, e = .wildcardComponent wildcard)

/-! ## Results -/

/-- A result is a value with the property, or else an error of the given kind. -/
def Ends {α : Type} (error : DeclError → Prop) (r : Except DeclError α) (P : α → Prop) : Prop :=
  match r with
  | .ok a => P a
  | .error e => error e

namespace Ends

variable {α β : Type} {error : DeclError → Prop} {P : α → Prop}

@[simp]
lemma ok_iff {a : α} : Ends error (.ok a) P ↔ P a := Iff.rfl

@[simp]
lemma error_iff {e : DeclError} : Ends error (.error e) P ↔ error e := Iff.rfl

lemma imp {r : Except DeclError α} {Q : α → Prop} (h : Ends error r P) (himp : ∀ a, P a → Q a) :
    Ends error r Q := by
  cases r with
  | ok a => exact himp a h
  | error e => exact h

lemma bind {r : Except DeclError α} {f : α → Except DeclError β} {Q : β → Prop}
    (h : Ends error r P) (hnext : ∀ a, P a → Ends error (f a) Q) : Ends error (r >>= f) Q := by
  cases r with
  | ok a => exact hnext a h
  | error e => exact h

lemma map {r : Except DeclError α} {Q : β → Prop} (h : Ends error r P) {f : α → β}
    (himp : ∀ a, P a → Q (f a)) : Ends error (r.map f) Q := by
  cases r with
  | ok a => exact himp a h
  | error e => exact h

end Ends

/-! ## Types in a vocabulary -/

namespace Store

variable (store : Store) (voc : Vocabulary)

/-- No supertype that the class declares mentions a type variable. -/
def Flat (id : ClassId) : Prop :=
  ∀ decl, store.class? id = some decl → ∀ edge ∈ decl.edges.supertypes, edge.Ground

/-- A type in the vocabulary, every class applied to as many arguments as it has parameters.  In a
closed vocabulary the variables in `own` may occur too, which are sure to be replaced. -/
inductive Written (own : TypeVarId → Prop) : Ty → Prop
  | cls {id : ClassId} (hid : voc.classes id) (hflat : voc.closed → store.Flat id) :
      Written own (.cls id)
  | applied {raw : ClassId} {args : List Ty} {owner : Option Ty} (hraw : voc.classes raw)
      (hlength : args.length = (store.paramsOf raw).length)
      (hargs : ∀ arg ∈ args, Written own arg)
      (howner : ∀ outer, owner = some outer → Written own outer)
      (hunnested : voc.unnested → owner = none) : Written own (.applied raw args owner)
  | var {v : TypeVarId} (hv : voc.vars v ∨ voc.closed ∧ own v) : Written own (.var v)
  | wildcard {upper lower : List Ty} (hupper : ∀ bound ∈ upper, Written own bound)
      (hlower : ∀ bound ∈ lower, Written own bound) : Written own (.wildcard upper lower)
  | array {component : Ty} (h : Written own component)
      (hsolid : voc.solid → component.var? = none ∧ component.isWildcard = false) :
      Written own (.array component)

/-- A type in the vocabulary, without any variables to be replaced. -/
abbrev Finished : Ty → Prop :=
  store.Written voc fun _ => False

/-- A store whose declarations stay within the vocabulary. -/
structure WellFormed : Prop where
  nominal : store.Nominal
  known : ∀ id, voc.classes id → store.Knows id
  object : store.Finished voc store.objectTy
  boxes : ∀ p, store.Finished voc (.cls (store.wellKnown.boxes.get p))
  supertypes : ∀ id decl, voc.classes id → store.class? id = some decl →
    ∀ edge ∈ decl.edges.supertypes, store.Written voc (· ∈ decl.params) edge
  bounds : ∀ v, voc.vars v → ∃ param, store.param? v = some param ∧
    ∀ bound ∈ param.bounds, store.Finished voc bound
  foreign : voc.closed → ∀ id, voc.classes id → ∀ v ∈ store.paramsOf id, ¬ voc.vars v

variable {store voc} {own own' : TypeVarId → Prop}

/-- It matters for the variables that occur only whether they are sure to be replaced. -/
theorem Written.mono {ty : Ty} (h : store.Written voc own ty) :
    (∀ v ∈ ty.vars, own v → own' v) → store.Written voc own' ty := by
  induction h with
  | cls hid hflat => exact fun _ => .cls hid hflat
  | applied hraw hlength _ _ hunnested ihargs ihowner =>
      intro himp
      simp only [Ty.vars, List.mem_append, Ty.mem_varsAll] at himp
      refine .applied hraw hlength (fun arg harg => ihargs arg harg fun v hv => ?_)
        (fun outer houter => ihowner outer houter fun v hv => ?_) hunnested
      · exact himp v (Or.inl ⟨arg, harg, hv⟩)
      · exact himp v (Or.inr (by simpa [houter, Ty.varsOwner] using hv))
  | var hv =>
      intro himp
      exact .var (hv.imp_right (And.imp_right (himp _ (by simp [Ty.vars]))))
  | wildcard _ _ ihupper ihlower =>
      intro himp
      simp only [Ty.vars, List.mem_append, Ty.mem_varsAll] at himp
      exact .wildcard
        (fun bound hbound => ihupper bound hbound fun v hv => himp v (Or.inl ⟨bound, hbound, hv⟩))
        fun bound hbound => ihlower bound hbound fun v hv => himp v (Or.inr ⟨bound, hbound, hv⟩)
  | array _ hsolid ih => exact fun himp => .array (ih himp) hsolid

/-- In a vocabulary that is not closed, no variable has to be replaced. -/
lemma Written.of_open {ty : Ty} (h : store.Written voc own ty) (hopen : ¬ voc.closed) :
    store.Written voc own' ty := by
  induction h with
  | cls hid hflat => exact .cls hid hflat
  | applied hraw hlength _ _ hunnested ihargs ihowner =>
      exact .applied hraw hlength ihargs ihowner hunnested
  | var hv => exact .var (Or.inl (hv.resolve_right fun hown => hopen hown.1))
  | wildcard _ _ ihupper ihlower => exact .wildcard ihupper ihlower
  | array _ hsolid ih => exact .array ih hsolid

lemma Finished.written {ty : Ty} (h : store.Finished voc ty) : store.Written voc own ty :=
  h.mono fun _ _ hfalse => hfalse.elim

end Store

/-! ## Bindings in a vocabulary -/

/-- Every variable is bound to a finished type, and in a closed vocabulary no variable of the
vocabulary is bound at all. -/
structure Bindings.Carries (store : Store) (voc : Vocabulary) (map : Bindings) : Prop where
  value : ∀ v ty, map.get? v = some ty → store.Finished voc ty
  foreign : voc.closed → ∀ v, voc.vars v → map.get? v = none

namespace Bindings

/-- The variable is bound. -/
def Binds (map : Bindings) (v : TypeVarId) : Prop :=
  ∃ ty, map.get? v = some ty

variable {store : Store} {voc : Vocabulary} {map : Bindings}

lemma carries_empty (store : Store) (voc : Vocabulary) : Bindings.empty.Carries store voc where
  value := by simp
  foreign := by simp

lemma Carries.bind (h : map.Carries store voc) {v : TypeVarId} {ty : Ty}
    (hty : store.Finished voc ty) (hv : voc.closed → ¬ voc.vars v) :
    (map.bind v ty).Carries store voc where
  value w t hget := by
    rw [get?_bind] at hget
    split at hget
    · exact Option.some.inj hget ▸ hty
    · exact h.value w t hget
  foreign hclosed w hw := by
    rw [get?_bind, if_neg]
    · exact h.foreign hclosed w hw
    · rintro rfl
      exact hv hclosed hw

lemma Binds.bind {v : TypeVarId} (h : map.Binds v) (w : TypeVarId) (ty : Ty) :
    (map.bind w ty).Binds v := by
  obtain ⟨t, ht⟩ := h
  by_cases hvw : v = w
  · exact ⟨ty, by simp [get?_bind, hvw]⟩
  · exact ⟨t, by simp [get?_bind, hvw, ht]⟩

end Bindings

namespace Checker

variable {checker : Checker} {voc : Vocabulary} {map : Bindings}

/-! ## Chains -/

/-- What a chain that starts at a variable may end with. -/
def EndsWith (store : Store) (voc : Vocabulary) (map : Bindings) (start : TypeVarId) :
    ChainEnd → Prop
  | .unbound => map.get? start = none
  | .ended ty => store.Finished voc ty ∧ ty.var? = none
  | .loose last => voc.vars last

/-- A chain ends with a finished type.  In a closed vocabulary it does not come back to where it has
been: what a variable is bound to is never bound itself, while all the variables that were visited
before the current one are. -/
lemma ends_followFrom (hmap : map.Carries checker.store voc) (start : TypeVarId) :
    ∀ (hops : Nat) (visited : List TypeVarId) (current : TypeVarId),
      (voc.closed → ∀ v ∈ visited, v ≠ current → map.Binds v) →
      (current ≠ start → voc.vars current) →
      Ends voc.Expects (checker.followFrom map start hops visited current)
        (EndsWith checker.store voc map start)
  | hops, visited, current, hvisited, hcurrent => by
    unfold followFrom
    cases hget : map.get? current with
    | none =>
        by_cases hstart : current = start
        · simpa [hstart, EndsWith] using hstart ▸ hget
        · simpa [hstart, EndsWith] using hcurrent hstart
    | some ty =>
        have hty := hmap.value current ty hget
        cases ty with
        | var next =>
            have hnext : voc.vars next := by
              cases hty with
              | var hv => exact hv.resolve_right fun hown => hown.2
            have hbound : voc.closed → ∀ v ∈ visited, map.Binds v := by
              intro hclosed v hv
              by_cases hsame : v = current
              · exact hsame ▸ ⟨_, hget⟩
              · exact hvisited hclosed v hv hsame
            cases hops with
            | zero => exact Or.inl (.chain _ _)
            | succ hops =>
                dsimp only
                split
                · rename_i hmem
                  refine Or.inr (Or.inl ⟨fun hclosed => ?_, _, rfl⟩)
                  obtain ⟨t, ht⟩ := hbound hclosed next (by simpa using hmem)
                  rw [hmap.foreign hclosed next hnext] at ht
                  exact absurd ht (by simp)
                · refine ends_followFrom hmap start hops (next :: visited) next ?_ fun _ => hnext
                  intro hclosed v hv hne
                  exact hbound hclosed v ((List.mem_cons.mp hv).resolve_left hne)
        | _ => exact ⟨hty, rfl⟩

lemma ends_follow (hmap : map.Carries checker.store voc) (v : TypeVarId) :
    Ends voc.Expects (checker.follow v map) (EndsWith checker.store voc map v) :=
  ends_followFrom hmap v _ [v] v
    (fun _ _ hmem hne => absurd (List.mem_singleton.mp hmem) hne) fun hne => absurd rfl hne

/-! ## Replacing variables -/

/-- A variable that is in the vocabulary, or is bound, is replaced by a finished type. -/
lemma ends_replaceVar (hmap : map.Carries checker.store voc) {v : TypeVarId}
    (hv : voc.vars v ∨ map.Binds v) :
    Ends voc.Expects (checker.replaceVar v map) (checker.store.Finished voc) := by
  refine (ends_follow hmap v).bind fun result hresult => ?_
  cases result with
  | unbound =>
      refine .var (Or.inl (hv.resolve_right ?_))
      rintro ⟨ty, hty⟩
      rw [show map.get? v = none from hresult] at hty
      exact absurd hty (by simp)
  | ended ty => exact hresult.1
  | loose last => exact .var (Or.inl hresult)

/-- What is put in for the variables of a type that is no variable leaves its outermost shape. -/
def SameShape (ty result : Ty) : Prop :=
  ty.var? = none → result.var? = none ∧ result.isWildcard = ty.isWildcard

mutual

/-- **Replacing the variables of a type yields a finished type**, given that all those are bound
that are sure to be replaced. -/
theorem ends_substWithin (hmap : map.Carries checker.store voc) {own : TypeVarId → Prop}
    (hown : ∀ v, own v → map.Binds v) : ∀ (fuel : Nat) {ty : Ty},
    checker.store.Written voc own ty → Ends voc.Expects (checker.substWithin map fuel ty)
      fun result => checker.store.Finished voc result ∧ SameShape ty result
  | 0, ty, _ => by
    rw [substWithin]
    exact Or.inl (.nested _)
  | _ + 1, .cls id, h => by
    cases h with
    | cls hid hflat => exact ⟨.cls hid hflat, fun _ => ⟨rfl, rfl⟩⟩
  | _ + 1, .var v, h => by
    cases h with
    | var hv =>
        rw [substWithin]
        refine (ends_replaceVar hmap (hv.imp_right fun hv => hown v hv.2)).imp fun result h => ?_
        exact ⟨h, fun hvar => absurd hvar (by simp [Ty.var?])⟩
  | fuel + 1, .applied raw args owner, h => by
    cases h with
    | applied hraw hlength hargs howner hunnested =>
        rw [substWithin]
        refine (ends_substAllWithin hmap hown fuel hargs).bind fun args' hargs' => ?_
        refine (ends_substOwnerWithin hmap hown fuel howner).bind fun owner' howner' => ?_
        exact ⟨.applied hraw (hargs'.2.trans hlength) hargs'.1 howner'.1
          fun hvoc => howner'.2 (hunnested hvoc), fun _ => ⟨rfl, rfl⟩⟩
  | fuel + 1, .wildcard upper lower, h => by
    cases h with
    | wildcard hupper hlower =>
        rw [substWithin]
        refine (ends_substAllWithin hmap hown fuel hupper).bind fun upper' hupper' => ?_
        refine (ends_substAllWithin hmap hown fuel hlower).bind fun lower' hlower' => ?_
        exact ⟨.wildcard hupper'.1 hlower'.1, fun _ => ⟨rfl, rfl⟩⟩
  | fuel + 1, .array component, h => by
    cases h with
    | array hcomponent hsolid =>
        rw [substWithin]
        refine (ends_substWithin hmap hown fuel hcomponent).bind fun component' hcomponent' => ?_
        refine ⟨.array hcomponent'.1 fun hvoc => ?_, fun _ => ⟨rfl, rfl⟩⟩
        obtain ⟨hvar, hwildcard⟩ := hsolid hvoc
        exact (hcomponent'.2 hvar).imp_right fun heq => heq.trans hwildcard

theorem ends_substAllWithin (hmap : map.Carries checker.store voc) {own : TypeVarId → Prop}
    (hown : ∀ v, own v → map.Binds v) : ∀ (fuel : Nat) {types : List Ty},
    (∀ ty ∈ types, checker.store.Written voc own ty) →
    Ends voc.Expects (checker.substAllWithin map fuel types)
      fun results => (∀ ty ∈ results, checker.store.Finished voc ty) ∧
        results.length = types.length
  | _, [], _ => by simp [substAllWithin]
  | fuel, ty :: rest, h => by
    obtain ⟨hty, hrest⟩ := List.forall_mem_cons.mp h
    rw [substAllWithin]
    refine (ends_substWithin hmap hown fuel hty).bind fun ty' hty' => ?_
    refine (ends_substAllWithin hmap hown fuel hrest).bind fun rest' hrest' => ?_
    exact ⟨List.forall_mem_cons.mpr ⟨hty'.1, hrest'.1⟩, by simp [hrest'.2]⟩

theorem ends_substOwnerWithin (hmap : map.Carries checker.store voc) {own : TypeVarId → Prop}
    (hown : ∀ v, own v → map.Binds v) : ∀ (fuel : Nat) {owner : Option Ty},
    (∀ outer, owner = some outer → checker.store.Written voc own outer) →
    Ends voc.Expects (checker.substOwnerWithin map fuel owner)
      fun result => (∀ outer, result = some outer → checker.store.Finished voc outer) ∧
        (owner = none → result = none)
  | _, none, _ => by simp [substOwnerWithin]
  | fuel, some owner, h => by
    rw [substOwnerWithin]
    refine (ends_substWithin hmap hown fuel (h owner rfl)).bind fun owner' howner' => ?_
    refine ⟨?_, by simp⟩
    rintro _ ⟨⟩
    exact howner'.1

end

/-! ## Binding arguments -/

/-- Binding arguments yields bindings in the vocabulary, and in a closed one binds every
parameter. -/
lemma ends_bindArguments {before : Bindings} (hbefore : before.Carries checker.store voc)
    {own : TypeVarId → Prop} (hown : ∀ v, own v → before.Binds v) (fuel : Nat) :
    ∀ (params : List TypeVarId) (args : List Ty) (map : Bindings),
      params.length = args.length → (voc.closed → ∀ v ∈ params, ¬ voc.vars v) →
      (∀ arg ∈ args, checker.store.Written voc own arg) → map.Carries checker.store voc →
      (∀ v, before.Binds v → map.Binds v) →
      Ends voc.Expects (checker.bindArguments fuel before params args map) fun bound =>
        bound.Carries checker.store voc ∧ (∀ v, map.Binds v → bound.Binds v) ∧
          (voc.closed → ∀ v ∈ params, bound.Binds v)
  | [], [], map, _, _, _, hmap, _ => by simp [bindArguments, hmap]
  | param :: params, arg :: args, map, hlength, hforeign, hargs, hmap, hgrown => by
    obtain ⟨harg, hrest⟩ := List.forall_mem_cons.mp hargs
    have hlength' : params.length = args.length := by simpa using hlength
    have hforeign' : voc.closed → ∀ v ∈ params, ¬ voc.vars v :=
      fun hclosed v hv => hforeign hclosed v (List.mem_cons_of_mem _ hv)
    rw [bindArguments]
    split
    · -- An argument that is the parameter itself is bound already in a closed vocabulary.
      rename_i hvar
      refine (ends_bindArguments hbefore hown fuel params args map hlength' hforeign' hrest hmap
        hgrown).imp fun bound hbound => ⟨hbound.1, hbound.2.1, fun hclosed => ?_⟩
      refine List.forall_mem_cons.mpr ⟨?_, hbound.2.2 hclosed⟩
      cases harg with
      | var hv =>
          rw [Ty.var?, Option.some.injEq] at hvar
          subst hvar
          have hown' := hv.resolve_left (hforeign hclosed _ (by simp))
          exact hbound.2.1 _ (hgrown _ (hown _ hown'.2))
      | _ => simp [Ty.var?] at hvar
    · refine (ends_substWithin hbefore hown fuel harg).bind fun value hvalue => ?_
      have hmap' := hmap.bind hvalue.1 fun hclosed => hforeign hclosed param (by simp)
      refine (ends_bindArguments hbefore hown fuel params args _ hlength' hforeign' hrest hmap'
        fun v hv => (hgrown v hv).bind param value).imp fun bound hbound => ?_
      refine ⟨hbound.1, fun v hv => hbound.2.1 v (hv.bind param value), fun hclosed => ?_⟩
      refine List.forall_mem_cons.mpr ⟨hbound.2.1 _ ⟨value, ?_⟩, hbound.2.2 hclosed⟩
      simp [Bindings.get?_bind]

end Checker

end JavaGenerics
