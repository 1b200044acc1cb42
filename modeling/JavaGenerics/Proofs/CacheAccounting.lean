import JavaGenerics.Proofs.CacheTransparency

/-!
# What a question costs a cache

A cache counts how often it could help and how often it could not.  The counts are of use only if
each question is charged exactly: for every class whose edges have to be computed there is one miss
and one copy more, and no class is computed twice, whatever way a question takes through the
hierarchy and wherever it breaks off.

* `EdgeCache.computed` — the classes whose edges are computed while a question is answered.
* `EdgeCache.Charged` — what they are charged as: **one miss each, and one copy each, except that
  the last one has no copy if it could not be computed**, which is then the error that the question
  ends with.
* `EdgeCache.charged_answer` — a question is charged so, by induction on its look-ups.
* `Checker.answerWith_charged` — what this says of questions to a store, and that nothing at all is
  charged where the cache is not to be consulted.
-/

namespace JavaGenerics

/-- An index grows by one entry with each new key. -/
lemma Index.size_insert {κ ν : Type} [DecidableEq κ] {index : Index κ ν} {key : κ} (value : ν)
    (h : index.get? key = none) : (index.insert key value).size = index.size + 1 := by
  have hkept : (index.entries.filter fun entry => entry.1 != key) = index.entries := by
    refine List.filter_eq_self.mpr fun entry hentry => bne_iff_ne.mpr fun heq => ?_
    have hne := List.lookup_eq_none_iff.mp h entry hentry
    simp [heq] at hne
  simp [insert, erase, size, hkept]

namespace EdgeCache

variable {α : Type}

/-- The classes whose edges are computed while a question is answered, in order: those that are
looked up and not found in the cache. -/
def computed (source : ClassId → Except DeclError Edges) : Query α → EdgeCache → List ClassId
  | .done _, _ => []
  | .fail _, _ => []
  | .lookup id next, cache =>
    let rest :=
      match cache.fetch id (source id) with
      | (.ok edges, cache) => computed source (next edges) cache
      | (.error _, _) => []
    if cache.entries.contains id then rest else id :: rest

/-! ## What is charged -/

/-- What answering a question makes of a cache, given the classes that are computed meanwhile: each
of them is a miss, none of them was there before or is computed twice, what could be computed is
kept and all else is as it was.  There are as many new copies as misses, or one less, for the class
that could not be computed; and then the question has no other answer than this. -/
structure Charged (source : ClassId → Except DeclError Edges) (result : Except DeclError α)
    (before after : EdgeCache) (computed : List ClassId) : Prop where
  hits : before.hits ≤ after.hits
  misses : after.misses = before.misses + computed.length
  once : computed.Nodup
  fresh : ∀ id ∈ computed, before.entries.get? id = none
  copies : ∀ id, after.entries.get? id =
    if id ∈ computed then (source id).toOption else before.entries.get? id
  size : after.entries.size = before.entries.size + computed.length ∨
    after.entries.size + 1 = before.entries.size + computed.length ∧
      ∃ id ∈ computed, ∃ e, source id = .error e ∧ result = .error e

namespace Charged

variable {source : ClassId → Except DeclError Edges} {result : Except DeclError α}
  {cache after : EdgeCache} {id : ClassId} {edges : Edges} {rest : List ClassId}

/-- Where nothing is looked up, nothing is charged. -/
lemma nothing : Charged source result cache cache [] where
  hits := Nat.le_refl _
  misses := rfl
  once := List.nodup_nil
  fresh := by simp
  copies := by simp
  size := Or.inl rfl

/-- A hit does not count as computed. -/
lemma hit (h : Charged source result { cache with hits := cache.hits + 1 } after rest) :
    Charged source result cache after rest where
  hits := Nat.le_of_succ_le h.hits
  misses := h.misses
  once := h.once
  fresh := h.fresh
  copies := h.copies
  size := h.size

/-- What has been computed is found from then on, and so it is not computed again. -/
lemma miss (hfresh : cache.entries.get? id = none) (hsource : source id = .ok edges)
    (h : Charged source result
      { cache with misses := cache.misses + 1, entries := cache.entries.insert id edges }
      after rest) :
    Charged source result cache after (id :: rest) where
  hits := h.hits
  misses := by
    rw [h.misses, List.length_cons, Nat.succ_add_eq_add_succ]
  once := by
    refine List.nodup_cons.mpr ⟨fun hmem => ?_, h.once⟩
    have hnone := h.fresh id hmem
    simp [Index.get?_insert] at hnone
  fresh other hmem := by
    rcases List.mem_cons.mp hmem with rfl | hmem
    · exact hfresh
    · have hnone := h.fresh other hmem
      rw [Index.get?_insert] at hnone
      split at hnone
      · cases hnone
      · exact hnone
  copies other := by
    rw [h.copies other, Index.get?_insert]
    by_cases hrest : other ∈ rest
    · simp [hrest]
    · by_cases hother : other = id
      · simp [hother, hsource, Except.toOption]
      · simp [hrest, hother]
  size := by
    have hsize := h.size
    rw [Index.size_insert edges hfresh] at hsize
    rw [List.length_cons]
    rcases hsize with hsize | ⟨hsize, other, hmem, hfailed⟩
    · exact Or.inl (by omega)
    · exact Or.inr ⟨by omega, other, List.mem_cons_of_mem _ hmem, hfailed⟩

/-- What cannot be computed is charged as a miss, and ends the question. -/
lemma refused {e : DeclError} (hfresh : cache.entries.get? id = none)
    (hsource : source id = .error e) :
    Charged source (.error e : Except DeclError α) cache
      { cache with misses := cache.misses + 1 } [id] where
  hits := Nat.le_refl _
  misses := rfl
  once := by simp
  fresh := by simpa using hfresh
  copies other := by
    by_cases hother : other = id
    · simp [hother, hfresh, hsource, Except.toOption]
    · simp [hother]
  size := Or.inr ⟨rfl, id, List.mem_singleton_self id, e, hsource, rfl⟩

/-- What was kept before is kept still. -/
lemma kept (h : Charged source result cache after rest)
    (hcopy : cache.entries.get? id = some edges) : after.entries.get? id = some edges := by
  have hnew : id ∉ rest := by
    intro hmem
    rw [h.fresh id hmem] at hcopy
    cases hcopy
  rw [h.copies id, if_neg hnew, hcopy]

/-- There are as many new misses as new copies, or one more for the class that could not be
computed. -/
lemma balance (h : Charged source result cache after rest) :
    ∃ misses copies, after.misses = cache.misses + misses ∧
      after.entries.size = cache.entries.size + copies ∧
      (misses = copies ∨
        misses = copies + 1 ∧ ∃ id e, source id = .error e ∧ result = .error e) := by
  rcases h.size with hsize | ⟨hsize, id, hmem, e, hsource, hresult⟩
  · exact ⟨_, _, h.misses, hsize, Or.inl rfl⟩
  · obtain ⟨n, hn⟩ := Nat.exists_eq_succ_of_ne_zero
      (Nat.ne_of_gt (List.length_pos_of_mem hmem))
    rw [hn] at hsize
    exact ⟨_, n, h.misses, Nat.succ.inj hsize, Or.inr ⟨hn, id, e, hsource, hresult⟩⟩

end Charged

/-- **A question is charged for each class that it has to compute, and for each of them once.** -/
theorem charged_answer (source : ClassId → Except DeclError Edges) (q : Query α) :
    ∀ cache : EdgeCache, Charged source (answer source q cache).1 cache (answer source q cache).2
      (computed source q cache) := by
  induction q with
  | done _ => exact fun _ => .nothing
  | fail _ => exact fun _ => .nothing
  | lookup id next ih =>
      intro cache
      cases hcopy : cache.entries.get? id with
      | some edges =>
          simp only [answer, computed, fetch_of_copy hcopy, Index.contains, hcopy,
            Option.isSome_some, if_true]
          exact (ih edges _).hit
      | none =>
          cases hsource : source id with
          | ok edges =>
              simp only [answer, computed, hsource, fetch_of_computed hcopy, Index.contains, hcopy,
                Option.isSome_none, Bool.false_eq_true, if_false]
              exact (ih edges _).miss hcopy hsource
          | error e =>
              simp only [answer, computed, hsource, fetch_of_refused hcopy, Index.contains, hcopy,
                Option.isSome_none, Bool.false_eq_true, if_false]
              exact .refused hcopy hsource

end EdgeCache

namespace Checker

/-- What a store cannot look up is an unknown class. -/
lemma edgesFromStore_eq_error {checker : Checker} {id : ClassId} {e : DeclError}
    (h : checker.edgesFromStore id = .error e) : e = .unknownClass id := by
  cases hclass : checker.store.class? id with
  | none => simpa [edgesFromStore, Store.knownClass, hclass, Except.map, eq_comm] using h
  | some decl => simp [edgesFromStore, Store.knownClass, hclass, Except.map] at h

/-- **What a question costs a cache.**  Whatever is asked of a store and whatever comes of it: where
the cache is consulted, every copy stays as it is, the hits do not decrease, and there are as many
new misses as new copies, or one more, and then the answer is that a class is unknown.  Each miss is
a class whose edges are computed, none of them is computed twice, and none that was there before is
computed at all.  Where the cache is not to be consulted, it stays as it is. -/
theorem answerWith_charged (checker : Checker) (cache : EdgeCache) {α : Type} (q : Query α) :
    let result := (checker.answerWith cache q).1
    let after := (checker.answerWith cache q).2
    (checker.limits.useCache = true →
      (∀ id edges, cache.entries.get? id = some edges → after.entries.get? id = some edges) ∧
        cache.hits ≤ after.hits ∧
        (∃ misses copies, after.misses = cache.misses + misses ∧
          after.entries.size = cache.entries.size + copies ∧
          (misses = copies ∨ misses = copies + 1 ∧ ∃ id, result = .error (.unknownClass id))) ∧
        let computed := EdgeCache.computed checker.edgesFromStore q cache
        after.misses = cache.misses + computed.length ∧ computed.Nodup ∧
          ∀ id ∈ computed, cache.entries.get? id = none) ∧
      (checker.limits.useCache = false → after = cache) := by
  intro result after
  refine ⟨fun huse => ?_, fun huse => ?_⟩
  · have hcharged := EdgeCache.charged_answer checker.edgesFromStore q cache
    have hanswer : checker.answerWith cache q =
        EdgeCache.answer checker.edgesFromStore q cache := by rw [answerWith, if_pos huse]
    rw [← hanswer] at hcharged
    refine ⟨fun _ _ => hcharged.kept, hcharged.hits, ?_, hcharged.misses, hcharged.once,
      hcharged.fresh⟩
    obtain ⟨misses, copies, hmisses, hsize, heven | ⟨hmore, id, e, hsource, hresult⟩⟩ :=
      hcharged.balance
    · exact ⟨misses, copies, hmisses, hsize, Or.inl heven⟩
    · obtain rfl := edgesFromStore_eq_error hsource
      exact ⟨misses, copies, hmisses, hsize, Or.inr ⟨hmore, id, hresult⟩⟩
  · simp [after, answerWith, huse]

/-- A string with an unknown class above it: the search for `Number` has to compute two classes, of
which one can be kept. -/
example :
    let store := Store.core.modifyClass ⟨5⟩ fun decl =>
      { decl with superclass := some (.cls ⟨7777⟩), interfaces := [] }
    let checker : Checker := { store := store }
    let (result, after) := checker.answerWith {} (checker.classConverts ⟨5⟩ ⟨6⟩)
    result = .error (.unknownClass ⟨7777⟩) ∧ after.misses = 2 ∧ after.entries.size = 1 :=
  ⟨rfl, rfl, rfl⟩

end Checker

end JavaGenerics
