import JavaGenerics.Arguments
import JavaGenerics.BoundList
import JavaGenerics.Erasure
import JavaGenerics.Proofs.CacheTransparency
import JavaGenerics.Proofs.CutShort

/-!
# Higher limits

Whoever meets a limit will raise it and ask again.  What was answered before must then be answered
alike: a limit may end a search, but it must not send it elsewhere.

* `Request` — everything that can be asked under limits, and `Request.query_cutOf` — under lower
  limits each request is the same request cut short.
* `Checker.answer_of_higher_limits` — **raising the limits never changes an answer**, be it a result
  or an error, other than an error that reports a limit.  A request that goes through bindings says
  in which order, so this holds for every order.
-/

namespace JavaGenerics

namespace Milder

open Checker Query

variable {store : Store} {stops : DeclError → Prop} {a b : Limits}

/-! ## The questions -/

section Questions

variable (h : Milder store stops a b) (hdepth : a.maxDepth ≤ b.maxDepth)

include h hdepth

lemma substitute (ty : Ty) (map : Bindings) :
    ShortOf stops ((Checker.mk store a).substitute ty map)
      ((Checker.mk store b).substitute ty map) :=
  h.substWithin map (Nat.succ_le_succ hdepth) ty

lemma viewAs (subject : Ty) (target : ClassId) (inherited : Bindings) :
    ((Checker.mk store a).viewAs subject target inherited).CutOf stops
      ((Checker.mk store b).viewAs subject target inherited) :=
  (h.decisions (Nat.succ_le_succ hdepth)).1 subject target inherited

lemma assignable (source : Option Ty) (target : Ty) (context : Option Bindings) :
    ((Checker.mk store a).assignable source target context).CutOf stops
      ((Checker.mk store b).assignable source target context) :=
  (h.decisions (Nat.succ_le_succ hdepth)).2.1 source target context

lemma seenFrom (context : Ty) (declaring : ClassId) (expression : Ty) :
    ((Checker.mk store a).seenFrom context declaring expression).CutOf stops
      ((Checker.mk store b).seenFrom context declaring expression) := by
  refine (h.viewAs hdepth context declaring .empty).bind fun map? => ?_
  cases map? with
  | none => exact .refl _
  | some map => exact .lift (h.substitute hdepth expression map)

lemma fieldSeenFrom (context : Ty) (owner : ClassId) (name : String) :
    ((Checker.mk store a).fieldSeenFrom context owner name).CutOf stops
      ((Checker.mk store b).fieldSeenFrom context owner name) := by
  refine .bind (.refl _) fun decl => ?_
  cases decl.field? name with
  | none => exact .refl _
  | some field => exact (h.seenFrom hdepth context owner field.ty).map some

omit hdepth in
lemma inferWithin (superRaw : ClassId) (superType : Ty) : ∀ {fuel fuel' : Nat}, fuel ≤ fuel' →
    ∀ id : ClassId, ((Checker.mk store a).inferWithin superRaw superType fuel id).CutOf stops
      ((Checker.mk store b).inferWithin superRaw superType fuel' id)
  | 0, _, _, _ => .stopped h.nested _
  | fuel + 1, 0, hfuel, _ => absurd hfuel (by omega)
  | fuel + 1, fuel' + 1, hfuel, id => by
    have hle : fuel ≤ fuel' := Nat.le_of_succ_le_succ hfuel
    simp only [Checker.inferWithin, classConverts_limits a b, parentToward_limits a b]
    refine .bind (.refl _) fun converts => .ite (.ite ((h.decisions hle).1 _ _ _) ?_) (.refl _)
    refine .bind (.refl _) fun parent => ?_
    rcases parent with _ | parent
    · exact .refl _
    · cases parent with
      | cls parent => exact inferWithin superRaw superType hle parent
      | applied raw args owner =>
          refine (inferWithin superRaw superType hle raw).bind fun map? => ?_
          cases map? with
          | none => exact .refl _
          | some map => exact .refl _
      | _ => exact .refl _

lemma inferArguments (id : ClassId) (superType : Ty) :
    ((Checker.mk store a).inferArguments id superType).CutOf stops
      ((Checker.mk store b).inferArguments id superType) := by
  cases superType with
  | applied raw args owner => exact h.inferWithin raw _ (Nat.succ_le_succ hdepth) id
  | _ => exact .refl _

omit hdepth in
lemma eraseWithin (viewer : Option Ty) {fuel fuel' : Nat} (hfuel : fuel ≤ fuel') (ty : Ty) :
    ((Checker.mk store a).eraseWithin viewer fuel ty).CutOf stops
      ((Checker.mk store b).eraseWithin viewer fuel' ty) := by
  induction fuel generalizing fuel' ty with
  | zero =>
      rw [Checker.eraseWithin]
      exact .stopped h.nested _
  | succ fuel ih =>
      obtain ⟨fuel', rfl⟩ : ∃ n, fuel' = n + 1 := ⟨fuel' - 1, by omega⟩
      have hle : fuel ≤ fuel' := Nat.le_of_succ_le_succ hfuel
      cases ty with
      | cls id => exact .refl _
      | applied raw args owner => exact .refl _
      | wildcard upper lower => exact .refl _
      | array component =>
          simp only [Checker.eraseWithin]
          exact (ih hle component).bind fun _ => .refl _
      | var v =>
          simp only [Checker.eraseWithin]
          rcases viewer with _ | viewed
          · exact .refl _
          · refine .bind (.refl _) fun param => ?_
            cases param.declarer with
            | ofMethod owner name => exact .refl _
            | ofClass declaring =>
                refine ((h.decisions hle).1 viewed declaring .empty).bind fun map? => ?_
                rcases map? with _ | map
                · exact .refl _
                · cases hget : map.get? v with
                  | none => simpa only [hget] using .refl _
                  | some arg => simpa only [hget] using ih hle arg

lemma impliedByEarlier (bound : Ty) (others : List Ty) :
    ((Checker.mk store a).impliedByEarlier bound others).CutOf stops
      ((Checker.mk store b).impliedByEarlier bound others) := by
  induction others with
  | nil => exact .refl _
  | cons other rest ih =>
      simp only [Checker.impliedByEarlier]
      exact (h.assignable hdepth _ _ _).bind fun _ => .ite (.refl _) ih

lemma impliedByLater (bound : Ty) (others : List Ty) :
    ((Checker.mk store a).impliedByLater bound others).CutOf stops
      ((Checker.mk store b).impliedByLater bound others) := by
  induction others with
  | nil => exact .refl _
  | cons other rest ih =>
      simp only [Checker.impliedByLater]
      exact (h.assignable hdepth _ _ _).bind fun _ =>
        .ite ((h.assignable hdepth _ _ _).bind fun _ => .ite ih (.refl _)) ih

lemma survivors : ∀ earlier later : List Ty,
    ((Checker.mk store a).survivors earlier later).CutOf stops
      ((Checker.mk store b).survivors earlier later)
  | _, [] => .refl _
  | earlier, bound :: later => by
    simp only [Checker.survivors]
    refine (h.impliedByEarlier hdepth bound earlier).bind fun implied => ?_
    have hrest (dropped : Bool) := (survivors (earlier ++ [bound]) later).bind fun rest =>
      show CutOf stops _ _ from .refl (pure (if dropped = true then rest else bound :: rest))
    split
    · exact .bind (.refl _) hrest
    · exact (h.impliedByLater hdepth bound later).bind hrest

lemma normalizeBounds (bounds : List Ty) :
    ((Checker.mk store a).normalizeBounds bounds).CutOf stops
      ((Checker.mk store b).normalizeBounds bounds) := by
  simp only [Checker.normalizeBounds]
  split
  · exact .refl _
  · exact .refl _
  · exact (h.survivors hdepth [] _).bind fun _ => .refl _

lemma withinBounds (map : Bindings) (ty : Ty) (bounds : List Ty) :
    ((Checker.mk store a).withinBounds map ty bounds).CutOf stops
      ((Checker.mk store b).withinBounds map ty bounds) := by
  induction bounds with
  | nil => exact .refl _
  | cons bound rest ih =>
      simp only [Checker.withinBounds]
      exact .bind (.lift (h.instantiate (some map) bound)) fun _ =>
        (h.assignable hdepth _ _ _).bind fun _ => .ite ih (.refl _)

lemma entriesSatisfy (map : Bindings) : ∀ entries : List (TypeVarId × Ty),
    ((Checker.mk store a).entriesSatisfy map entries).CutOf stops
      ((Checker.mk store b).entriesSatisfy map entries)
  | [] => .refl _
  | (v, ty) :: rest => by
    simp only [Checker.entriesSatisfy]
    exact .bind (.refl _) fun bounds =>
      (h.withinBounds hdepth map ty bounds).bind fun _ =>
        .ite (entriesSatisfy map rest) (.refl _)

/-- Every question is the same question cut short. -/
lemma question (question : Question) :
    (question.query (Checker.mk store a)).CutOf stops (question.query (Checker.mk store b)) := by
  cases question with
  | assignable source target context => exact h.assignable hdepth source target context
  | viewAs subject target inherited => exact h.viewAs hdepth subject target inherited
  | inferArguments id superType => exact h.inferArguments hdepth id superType
  | seenFrom context declaring expression => exact h.seenFrom hdepth context declaring expression
  | fieldSeenFrom context owner name => exact h.fieldSeenFrom hdepth context owner name
  | erase ty viewer => exact h.eraseWithin viewer (Nat.succ_le_succ hdepth) ty
  | mentionsVariables ty => exact .refl _
  | normalizeBounds bounds => exact h.normalizeBounds hdepth bounds
  | satisfiesBounds map order => exact h.entriesSatisfy hdepth map order.entries

end Questions

end Milder

/-! ## Raising both limits -/

namespace Checker

variable {store : Store} {a b : Limits}

/-- A chain that ends within the lower limit ends alike under the higher one. -/
lemma followFrom_limits (map : Bindings) (start : TypeVarId) :
    ∀ {hops hops' : Nat}, hops ≤ hops' → ∀ (visited : List TypeVarId) (current : TypeVarId),
      ShortOf DeclError.IsLimit ((Checker.mk store a).followFrom map start hops visited current)
        ((Checker.mk store b).followFrom map start hops' visited current)
  | hops, hops', hle, visited, current => by
    unfold followFrom
    cases map.get? current with
    | none => exact .refl _
    | some ty =>
        cases ty with
        | var next =>
            cases hops with
            | zero => exact .stopped (.chain _ _) _
            | succ hops =>
                cases hops' with
                | zero => exact absurd hle (by omega)
                | succ hops' =>
                    dsimp only
                    split
                    · exact .refl _
                    · exact followFrom_limits map start (Nat.le_of_succ_le_succ hle) _ next
        | _ => exact .refl _

lemma milder_of_le (store : Store) (hchain : a.maxVariableChain ≤ b.maxVariableChain) :
    Milder store DeclError.IsLimit a b where
  nested := .nested _
  follow v map := followFrom_limits map v hchain [v] v

end Checker

/-- What can be asked under limits: a question about a hierarchy, or one about given bindings. -/
inductive Request where
  | ask (question : Question)
  | endOfChain (var : TypeVarId) (map : Bindings)
  | substitute (ty : Ty) (map : Bindings)

namespace Request

/-- What a request is answered with. -/
def Answer : Request → Type
  | ask question => question.Answer
  | endOfChain .. => Option Ty
  | substitute .. => Ty

/-- The request as it is put to the store. -/
def query (checker : Checker) : (request : Request) → Query request.Answer
  | ask question => question.query checker
  | endOfChain var map => liftM (checker.endOfChain var map)
  | substitute ty map => liftM (checker.substitute ty map)

/-- Under lower limits every request is the same request cut short. -/
lemma query_cutOf (store : Store) {a b : Limits} (hdepth : a.maxDepth ≤ b.maxDepth)
    (hchain : a.maxVariableChain ≤ b.maxVariableChain) (request : Request) :
    (request.query (Checker.mk store a)).CutOf DeclError.IsLimit
      (request.query (Checker.mk store b)) := by
  have h := Checker.milder_of_le store hchain
  cases request with
  | ask question => exact h.question hdepth question
  | endOfChain var map => exact .lift (h.endOfChain var map)
  | substitute ty map => exact .lift (h.substitute hdepth ty map)

end Request

/-- **Raising the limits never changes an answer.**  Whatever a store answers under lower limits,
other than that a limit was met, it answers under higher ones.  The same holds through a cache, even
through one whose copies are out of date, and the cache is the same afterwards. -/
theorem Checker.answer_of_higher_limits (store : Store) {a b : Limits}
    (hdepth : a.maxDepth ≤ b.maxDepth) (hchain : a.maxVariableChain ≤ b.maxVariableChain)
    (request : Request) :
    let lower : Checker := { store := store, limits := a }
    let higher : Checker := { store := store, limits := b }
    ((∀ e, lower.answer (request.query lower) = .error e → ¬ e.IsLimit) →
      higher.answer (request.query higher) = lower.answer (request.query lower)) ∧
    (a.useCache = b.useCache → ∀ cache : EdgeCache,
      (∀ e, (lower.answerWith cache (request.query lower)).1 = .error e → ¬ e.IsLimit) →
      higher.answerWith cache (request.query higher) =
        lower.answerWith cache (request.query lower)) := by
  intro lower higher
  have hcut := request.query_cutOf store hdepth hchain
  have hanswer (hok : ∀ e, lower.answer (request.query lower) = .error e → ¬ e.IsLimit) :
      higher.answer (request.query higher) = lower.answer (request.query lower) := by
    rcases hcut.run_short lower.edgesFromStore with heq | ⟨e, he, hlimit⟩
    · exact heq.symm
    · exact absurd hlimit (hok e he)
  refine ⟨hanswer, fun huse cache hok => ?_⟩
  have huse' : higher.limits.useCache = lower.limits.useCache := huse.symm
  simp only [answerWith, huse'] at hok ⊢
  cases hcached : lower.limits.useCache with
  | true =>
      simp only [hcached, if_true] at hok ⊢
      rcases hcut.answer_eq lower.edgesFromStore cache with ⟨e, he, hlimit⟩ | heq
      · exact absurd hlimit (hok e he)
      · exact heq.symm
  | false =>
      simp only [hcached, Bool.false_eq_true, if_false] at hok ⊢
      rw [hanswer hok]

/-- An `ArrayList<String>` is a `Collection<? extends CharSequence>` under the default limits, and
so it is under any that are higher. -/
theorem Checker.arrayList_under_higher_limits :
    let question : Question := .assignable (some (.app ⟨29⟩ [.cls ⟨5⟩]))
      (.app ⟨24⟩ [.extending (.cls ⟨3⟩)]) none
    let higher : Checker :=
      { store := .collections, limits := { maxDepth := 100000, maxVariableChain := 1000 } }
    higher.answer ((Request.ask question).query higher) = .ok true :=
  ((Checker.answer_of_higher_limits .collections (a := {})
    (b := { maxDepth := 100000, maxVariableChain := 1000 }) (by decide) (by decide)
    (.ask (.assignable (some (.app ⟨29⟩ [.cls ⟨5⟩])) (.app ⟨24⟩ [.extending (.cls ⟨3⟩)]) none))).1
    (by rintro e ⟨⟩)).trans rfl

end JavaGenerics
