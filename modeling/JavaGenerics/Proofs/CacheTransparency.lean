import JavaGenerics.Arguments
import JavaGenerics.BoundList
import JavaGenerics.Erasure
import JavaGenerics.Store.Stock
import JavaGenerics.Proofs.Answering

/-!
# The cache does not show

A cache keeps copies of declarations and does not notice when these change.  Whoever changes the
store has to evict what changed.  This file says what that buys.

* `EdgeCache.answer_eq_run` — while every copy is what the source yields, **a question is answered
  as without the cache**, and every copy remains so.
* `Session` — a store with a cache, and on the side the classes that have changed since they were
  last evicted.  `Session.run` interleaves changes, operations of the cache and questions, and
  `Session.Disciplined` says that no question is asked while a class waits to be evicted.
* `Session.coherent_run` — **at every moment, a copy of a class that is not waiting is current.**
* `Session.transparent` — in a disciplined run, every question is answered as without the cache.
-/

namespace JavaGenerics

namespace EdgeCache

variable {α : Type}

/-! ## One look-up -/

section LookUp

variable {cache : EdgeCache} {id : ClassId} {edges : Edges}

/-- A look-up that finds a copy is a hit. -/
lemma fetch_of_copy (h : cache.entries.get? id = some edges) (compute : Except DeclError Edges) :
    cache.fetch id compute = (.ok edges, { cache with hits := cache.hits + 1 }) := by
  simp [fetch, get, h]

/-- A look-up that finds no copy is a miss, and keeps what is computed. -/
lemma fetch_of_computed (h : cache.entries.get? id = none) :
    cache.fetch id (.ok edges) =
      (.ok edges, { cache with
        misses := cache.misses + 1
        entries := cache.entries.insert id edges }) := by
  simp [fetch, get, h]

/-- A look-up that finds no copy is a miss, also if nothing can be computed. -/
lemma fetch_of_refused (h : cache.entries.get? id = none) (e : DeclError) :
    cache.fetch id (.error e) = (.error e, { cache with misses := cache.misses + 1 }) := by
  simp [fetch, get, h]

end LookUp

/-! ## One question -/

/-- Every copy, other than those of the given classes, is what the source yields. -/
def FaithfulExcept (cache : EdgeCache) (awaiting : ClassId → Prop)
    (source : ClassId → Except DeclError Edges) : Prop :=
  ∀ id edges, cache.entries.get? id = some edges → ¬ awaiting id → source id = .ok edges

variable {awaiting : ClassId → Prop} {source : ClassId → Except DeclError Edges}

lemma entries_get (cache : EdgeCache) (id : ClassId) :
    (cache.get id).2.entries = cache.entries := by
  rw [get]
  split <;> rfl

/-- A look-up leaves the copies as they were, or adds one that is current. -/
lemma FaithfulExcept.fetch {cache : EdgeCache} (h : cache.FaithfulExcept awaiting source)
    (id : ClassId) : (cache.fetch id (source id)).2.FaithfulExcept awaiting source := by
  intro other edges hget hwait
  cases hfound : cache.entries.get? id with
  | some kept =>
      rw [fetch_of_copy hfound] at hget
      exact h other edges hget hwait
  | none =>
      cases hsource : source id with
      | error e =>
          rw [hsource, fetch_of_refused hfound] at hget
          exact h other edges hget hwait
      | ok current =>
          simp only [hsource, fetch_of_computed hfound, Index.get?_insert] at hget
          split at hget
          · rename_i hother
            rw [hother, hsource, Option.some.inj hget]
          · exact h other edges hget hwait

/-- A look-up through a cache whose copies are current yields what the source yields. -/
lemma fetch_eq {cache : EdgeCache} (h : cache.FaithfulExcept awaiting source)
    (hwait : ∀ id, ¬ awaiting id) (id : ClassId) :
    (cache.fetch id (source id)).1 = source id := by
  cases hfound : cache.entries.get? id with
  | some kept =>
      rw [fetch_of_copy hfound]
      exact (h id kept hfound (hwait id)).symm
  | none =>
      cases source id with
      | ok edges => rw [fetch_of_computed hfound]
      | error e => rw [fetch_of_refused hfound]

/-- Answering a question leaves every copy faithful that was so before. -/
theorem FaithfulExcept.answer (q : Query α) : ∀ {cache : EdgeCache},
    cache.FaithfulExcept awaiting source →
      (EdgeCache.answer source q cache).2.FaithfulExcept awaiting source := by
  induction q with
  | done _ => exact id
  | fail _ => exact id
  | lookup id next ih =>
      intro cache h
      have hfetch := h.fetch id
      rcases hlooked : cache.fetch id (source id) with ⟨result, cache'⟩
      rw [hlooked] at hfetch
      rw [EdgeCache.answer, hlooked]
      cases result with
      | ok edges => exact ih edges hfetch
      | error _ => exact hfetch

/-- **While all copies are current, a question is answered as without the cache.** -/
theorem answer_eq_run (hwait : ∀ id, ¬ awaiting id) (q : Query α) : ∀ {cache : EdgeCache},
    cache.FaithfulExcept awaiting source → (EdgeCache.answer source q cache).1 = q.run source := by
  induction q with
  | done _ => exact fun _ => rfl
  | fail _ => exact fun _ => rfl
  | lookup id next ih =>
      intro cache h
      have hfetch := h.fetch id
      have heq := fetch_eq h hwait id
      rcases hlooked : cache.fetch id (source id) with ⟨result, cache'⟩
      rw [hlooked] at hfetch heq
      rw [EdgeCache.answer, hlooked, Query.run, ← heq]
      cases result with
      | ok edges => exact ih edges hfetch
      | error _ => rfl

end EdgeCache

/-! ## Sessions -/

/-- The questions that a checker answers.  Bindings are gone through in some order when they are
held against their bounds, and any order may come up. -/
inductive Question where
  | assignable (source : Option Ty) (target : Ty) (context : Option Bindings)
  | viewAs (subject : Ty) (target : ClassId) (inherited : Bindings)
  | inferArguments (id : ClassId) (superType : Ty)
  | seenFrom (context : Ty) (declaring : ClassId) (expression : Ty)
  | fieldSeenFrom (context : Ty) (owner : ClassId) (name : String)
  | erase (ty : Ty) (viewer : Option Ty)
  | mentionsVariables (ty : Ty)
  | normalizeBounds (bounds : List Ty)
  | satisfiesBounds (map : Bindings) (order : map.Order)

namespace Question

/-- What a question is answered with. -/
def Answer : Question → Type
  | assignable .. => Bool
  | viewAs .. => Option Bindings
  | inferArguments .. => Option Bindings
  | seenFrom .. => Ty
  | fieldSeenFrom .. => Option Ty
  | erase .. => Option Ty
  | mentionsVariables .. => Bool
  | normalizeBounds .. => List Ty
  | satisfiesBounds .. => Bool

/-- The question as it is put to the store. -/
def query (checker : Checker) : (question : Question) → Query question.Answer
  | assignable source target context => checker.assignable source target context
  | viewAs subject target inherited => checker.viewAs subject target inherited
  | inferArguments id superType => checker.inferArguments id superType
  | seenFrom context declaring expression => checker.seenFrom context declaring expression
  | fieldSeenFrom context owner name => checker.fieldSeenFrom context owner name
  | erase ty viewer => checker.erase ty viewer
  | mentionsVariables ty => Checker.mentionsVariables ty
  | normalizeBounds bounds => checker.normalizeBounds bounds
  | satisfiesBounds map order => checker.satisfiesBounds map order

end Question

namespace Store

/-- The walkable part of a declaration. -/
def edges? (store : Store) (id : ClassId) : Option Edges :=
  (store.class? id).map ClassDecl.edges

/-- The class is known, and the walkable part of its declaration is another one afterwards. -/
def Altered (before after : Store) (id : ClassId) : Prop :=
  ∃ edges, before.edges? id = some edges ∧ after.edges? id ≠ some edges

/-- A change in place alters one class at most. -/
lemma eq_of_altered_modifyClass {store : Store} {id other : ClassId}
    {change : ClassDecl → ClassDecl} (h : store.Altered (store.modifyClass id change) other) :
    other = id := by
  obtain ⟨edges, hbefore, hafter⟩ := h
  by_contra hne
  refine hafter ?_
  rw [modifyClass]
  split
  · have hindex : id.index ≠ other.index := fun heq =>
      hne (by cases id; cases other; simpa using heq.symm)
    simpa [edges?, class?, Array.getElem?_setIfInBounds_ne hindex] using hbefore
  · exact hbefore

lemma edgesFromStore_eq_ok {checker : Checker} {id : ClassId} {edges : Edges} :
    checker.edgesFromStore id = .ok edges ↔ checker.store.edges? id = some edges := by
  cases h : checker.store.class? id <;>
    simp [Checker.edgesFromStore, knownClass, edges?, h, Except.map]

end Store

/-- A store with a cache, and the classes that have changed since they were last evicted. -/
structure Session where
  store : Store
  cache : EdgeCache := {}
  awaiting : ClassId → Prop := fun _ => False

/-- What may happen in a session. -/
inductive Action where
  /-- The store changes, in any way at all. -/
  | change (next : Store)
  | evict (id : ClassId)
  | clear
  | get (id : ClassId)
  /-- A class is loaded into the cache, unless it is there. -/
  | fetch (id : ClassId)
  /-- A question is asked through the cache, under the given limits. -/
  | ask (limits : Limits) (question : Question)

namespace Session

def checker (s : Session) (limits : Limits) : Checker :=
  { store := s.store, limits := limits }

/-- What an action makes of a session. -/
def step (s : Session) : Action → Session
  | .change next =>
    { s with store := next, awaiting := fun id => s.awaiting id ∨ s.store.Altered next id }
  | .evict id =>
    { s with cache := (s.cache.evict id).2, awaiting := fun other => other ≠ id ∧ s.awaiting other }
  | .clear => { s with cache := s.cache.clear, awaiting := fun _ => False }
  | .get id => { s with cache := (s.cache.get id).2 }
  | .fetch id => { s with cache := (s.cache.fetch id ((s.checker {}).edgesFromStore id)).2 }
  | .ask limits question =>
    { s with
      cache := ((s.checker limits).answerWith s.cache (question.query (s.checker limits))).2 }

/-- The session after some actions. -/
def run (s : Session) (actions : List Action) : Session :=
  actions.foldl step s

/-- No question is asked while a class is waiting to be evicted. -/
def Disciplined : Session → List Action → Prop
  | _, [] => True
  | s, .ask limits question :: rest =>
    (∀ id, ¬ s.awaiting id) ∧ (s.step (.ask limits question)).Disciplined rest
  | s, action :: rest => (s.step action).Disciplined rest

/-- Every copy of a class that is not waiting is current. -/
def Coherent (s : Session) : Prop :=
  ∀ id edges, s.cache.entries.get? id = some edges → ¬ s.awaiting id →
    s.store.edges? id = some edges

/-! ## What an action preserves -/

lemma Coherent.faithful {s : Session} (h : s.Coherent) (limits : Limits) :
    s.cache.FaithfulExcept s.awaiting (s.checker limits).edgesFromStore :=
  fun id edges hget hwait => Store.edgesFromStore_eq_ok.mpr (h id edges hget hwait)

lemma coherent_of_faithful {s : Session} (limits : Limits)
    (h : s.cache.FaithfulExcept s.awaiting (s.checker limits).edgesFromStore) : s.Coherent :=
  fun id edges hget hwait => Store.edgesFromStore_eq_ok.mp (h id edges hget hwait)

/-- A change makes copies stale only of classes that wait afterwards. -/
lemma Coherent.change {s : Session} (h : s.Coherent) (next : Store) :
    (s.step (.change next)).Coherent := by
  intro id edges hget hwait
  simp only [step, not_or] at hget hwait
  by_contra hne
  exact hwait.2 ⟨edges, h id edges hget hwait.1, hne⟩

lemma Coherent.evict {s : Session} (h : s.Coherent) (id : ClassId) :
    (s.step (.evict id)).Coherent := by
  intro other edges hget hwait
  simp only [step, EdgeCache.evict, Index.get?_erase] at hget hwait
  split at hget
  · exact absurd hget (by simp)
  · rename_i hother
    exact h other edges hget fun hawaits => hwait ⟨hother, hawaits⟩

/-- **No action leaves a copy of a class that is not waiting and not current.** -/
theorem Coherent.step {s : Session} (h : s.Coherent) (action : Action) :
    (s.step action).Coherent := by
  cases action with
  | change next => exact h.change next
  | evict id => exact h.evict id
  | clear => exact fun _ _ hget => absurd hget (by simp [Session.step, EdgeCache.clear])
  | get id =>
      intro other edges hget
      simp only [Session.step, EdgeCache.entries_get] at hget
      exact h other edges hget
  | fetch id => exact coherent_of_faithful {} ((h.faithful {}).fetch id)
  | ask limits question =>
      refine coherent_of_faithful limits ?_
      simp only [Session.step, Checker.answerWith]
      split
      · exact (h.faithful limits).answer _
      · exact h.faithful limits

/-- **At every moment of every run, a copy of a class that is not waiting is current.** -/
theorem coherent_run {s : Session} (h : s.Coherent) (actions : List Action) :
    (s.run actions).Coherent := by
  induction actions generalizing s with
  | nil => exact h
  | cons action rest ih => exact ih (h.step action)

lemma coherent_start (store : Store) : ({ store := store } : Session).Coherent :=
  fun _ _ hget => absurd hget (by simp)

/-- A question is answered as without the cache where no class waits. -/
theorem Coherent.answerWith_eq {s : Session} (h : s.Coherent) (hwait : ∀ id, ¬ s.awaiting id)
    (limits : Limits) {α : Type} (q : Query α) :
    ((s.checker limits).answerWith s.cache q).1 = (s.checker limits).answer q := by
  rw [Checker.answerWith]
  split
  · exact EdgeCache.answer_eq_run hwait q (h.faithful limits)
  · rfl

/-! ## Whole runs -/

/-- In a disciplined run, no class waits when a question is asked. -/
lemma Disciplined.not_awaiting {limits : Limits} {question : Question} {after : List Action} :
    ∀ {before : List Action} {s : Session},
      s.Disciplined (before ++ .ask limits question :: after) → ∀ id, ¬ (s.run before).awaiting id
  | [], _, h => h.1
  | action :: before, s, h => by
    have hrest : (s.step action).Disciplined (before ++ .ask limits question :: after) := by
      cases action with
      | ask => exact h.2
      | _ => exact h
    exact hrest.not_awaiting

/-- **The cache does not show.**  In every run that starts with an empty cache and evicts what has
changed before it asks the next question, each question is answered as it would be without the
cache; all copies are current when it is asked; and at every other moment those of the classes that
are not waiting to be evicted are. -/
theorem transparent (store : Store) {actions : List Action}
    (h : ({ store := store } : Session).Disciplined actions) {before after : List Action}
    (hsplit : actions = before ++ after) :
    let s := ({ store := store } : Session).run before
    (∀ id edges, s.cache.entries.get? id = some edges → ¬ s.awaiting id →
      s.store.edges? id = some edges) ∧
    ∀ limits question rest, after = .ask limits question :: rest →
      ((s.checker limits).answerWith s.cache (question.query (s.checker limits))).1 =
        (s.checker limits).answer (question.query (s.checker limits)) ∧
      ∀ id edges, s.cache.entries.get? id = some edges → s.store.edges? id = some edges := by
  intro s
  have hcoherent : s.Coherent := coherent_run (coherent_start store) before
  refine ⟨hcoherent, ?_⟩
  rintro limits question rest rfl
  subst hsplit
  have hwait := h.not_awaiting
  exact ⟨hcoherent.answerWith_eq hwait limits _, fun id edges hget =>
    hcoherent id edges hget (hwait id)⟩

/-- The core store, in which `String` implements nothing any more. -/
def bareString : Store :=
  Store.core.modifyClass ⟨5⟩ fun decl => { decl with interfaces := [] }

lemma bareString_disciplined (rest : List Action)
    (h : ∀ s : Session, (∀ id, ¬ s.awaiting id) → s.Disciplined rest) :
    ({ store := .core } : Session).Disciplined
      (.fetch ⟨5⟩ :: .change bareString :: .evict ⟨5⟩ :: rest) := by
  refine h _ fun id => ?_
  rintro ⟨hne, hfalse | haltered⟩
  · exact hfalse
  · exact hne (Store.eq_of_altered_modifyClass haltered)

/-- Once `String` has been evicted, the cache does not show that it used to be a `CharSequence`. -/
theorem transparent_bareString :
    let s := ({ store := .core } : Session).run
      [.fetch ⟨5⟩, .change bareString, .evict ⟨5⟩]
    let question : Question := .assignable (some (.cls ⟨5⟩)) (.cls ⟨3⟩) none
    ((s.checker {}).answerWith s.cache (question.query (s.checker {}))).1 =
      (s.checker {}).answer (question.query (s.checker {})) :=
  ((transparent .core
    (bareString_disciplined [.ask {} (.assignable (some (.cls ⟨5⟩)) (.cls ⟨3⟩) none)]
      fun _ hwait => ⟨hwait, trivial⟩)
    (show _ = [Action.fetch ⟨5⟩, .change bareString, .evict ⟨5⟩] ++ [.ask {} _] from rfl)).2
    {} _ [] rfl).1

/-- Until `String` is evicted, its copy is not what the store says of it. -/
theorem stale_bareString :
    ({ store := .core } : Session).Disciplined [.fetch ⟨5⟩, .change bareString, .evict ⟨5⟩] ∧
    let s := ({ store := .core } : Session).run [.fetch ⟨5⟩, .change bareString]
    ∃ edges, s.cache.entries.get? ⟨5⟩ = some edges ∧ s.store.edges? ⟨5⟩ ≠ some edges := by
  refine ⟨bareString_disciplined [] fun _ _ => trivial, _, rfl, fun h => ?_⟩
  have hinterfaces := congrArg (Option.map fun edges => edges.interfaces.length) h
  exact absurd hinterfaces (by decide)

end Session

end JavaGenerics
