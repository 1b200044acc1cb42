import Mathlib.Data.List.Pairwise
import Mathlib.Data.Fintype.EquivFin
import JavaGenerics.BoundList
import JavaGenerics.Store.Stock
import JavaGenerics.Proofs.Answering

/-!
# Which bounds a normal bound list keeps

Whether one bound implies another is for the checker to answer, and its answers are no order: a raw
type is assignable to every instance of its class, and every instance to it.  What can be said of a
list from which the implied bounds are dropped one by one?

* `distinct_eq_eraseDups` — the list that is gone through holds the first occurrences.
* `Checker.Sieved` — **what is known of a bound that is kept and of one that is dropped**, as a
  relation between the list and what is left of it.
* `Checker.normalizeBounds_normal` — what is left is not empty, in the order of the list, has no two
  members of which one implies the other, and is left as it is by a second round.
* `Checker.normalizeBounds_covers` — for each bound something in the list implies it, and something
  of what is left does, as far as implication is transitive.
-/

namespace JavaGenerics

/-! ## First occurrences -/

namespace Ty

mutual

/-- Equality of types is symmetric. -/
theorem same_comm : ∀ s t : Ty, same s t = same t s
  | .cls _, t => by cases t <;> simp [same, BEq.comm]
  | .applied _ as _, t => by
      cases t with
      | applied _ bs _ => simp [same, BEq.comm, sameAll_comm as bs]
      | _ => simp [same]
  | .var _, t => by cases t <;> simp [same, BEq.comm]
  | .wildcard us ls, t => by
      cases t with
      | wildcard us' ls' => simp [same, sameAll_comm us us', sameAll_comm ls ls']
      | _ => simp [same]
  | .array c, t => by
      cases t with
      | array d => simp [same, same_comm c d]
      | _ => simp [same]

/-- Pointwise equality of lists of types is symmetric. -/
theorem sameAll_comm : ∀ ss ts : List Ty, sameAll ss ts = sameAll ts ss
  | [], ts => by cases ts <;> simp [sameAll]
  | s :: ss, ts => by
      cases ts with
      | nil => simp [sameAll]
      | cons t ts => simp [sameAll, same_comm s t, sameAll_comm ss ts]

end

lemma beq_comm (s t : Ty) : (s == t) = (t == s) := same_comm s t

end Ty

/-- What is listed of a list are the first occurrences of what has not been met before. -/
lemma distinctAfter_eq (seen types : List Ty) :
    distinctAfter seen types = (types.filter fun ty => !seen.contains ty).eraseDups := by
  induction types generalizing seen with
  | nil => simp [distinctAfter]
  | cons ty rest ih =>
      by_cases hmet : seen.contains ty = true
      · simp [distinctAfter, hmet, ih]
      · have hrest : (rest.filter fun other => !(seen ++ [ty]).contains other) =
            (rest.filter fun other => !seen.contains other).filter fun other => !other == ty := by
          rw [List.filter_filter]
          congr 1
          funext other
          simp [List.contains_eq_any_beq, Bool.and_comm]
        rw [distinctAfter, if_neg hmet, ih, hrest, List.filter_cons_of_pos (by simpa using hmet),
          List.eraseDups_cons]

/-- **`distinct` lists the first occurrences.** -/
lemma distinct_eq_eraseDups (types : List Ty) : distinct types = types.eraseDups := by
  simp [distinct, distinctAfter_eq, List.contains_eq_any_beq]

lemma distinctAfter_sublist (seen types : List Ty) : (distinctAfter seen types).Sublist types := by
  induction types generalizing seen with
  | nil => exact .slnil
  | cons ty rest ih =>
      simp only [distinctAfter]
      split
      · exact (ih seen).cons ty
      · exact (ih (seen ++ [ty])).cons_cons ty

/-- Nothing that is listed has been met before. -/
lemma not_beq_of_mem_distinctAfter {seen types : List Ty} {ty : Ty}
    (h : ty ∈ distinctAfter seen types) : ∀ other ∈ seen, (other == ty) = false := by
  induction types generalizing seen with
  | nil => simp [distinctAfter] at h
  | cons next rest ih =>
      simp only [distinctAfter] at h
      split at h
      case isTrue => exact ih h
      case isFalse hnew =>
        rcases List.mem_cons.mp h with rfl | h
        · intro other hother
          rw [Ty.beq_comm]
          simp only [List.contains_eq_any_beq, List.any_eq_true, not_exists, not_and] at hnew
          simpa using hnew other hother
        · exact fun other hother => ih h other (List.mem_append_left _ hother)

lemma pairwise_distinctAfter (seen types : List Ty) :
    (distinctAfter seen types).Pairwise fun a b => (a == b) = false := by
  induction types generalizing seen with
  | nil => exact .nil
  | cons ty rest ih =>
      simp only [distinctAfter]
      split
      · exact ih seen
      · exact .cons (fun other hother => not_beq_of_mem_distinctAfter hother ty (by simp))
          (ih (seen ++ [ty]))

/-- No two of the first occurrences are the same type. -/
lemma pairwise_distinct (types : List Ty) :
    (distinct types).Pairwise fun a b => (a == b) = false :=
  pairwise_distinctAfter [] types

lemma distinctAfter_of_pairwise {seen types : List Ty}
    (h : (seen ++ types).Pairwise fun a b => (a == b) = false) :
    distinctAfter seen types = types := by
  induction types generalizing seen with
  | nil => rfl
  | cons ty rest ih =>
      have hnew : seen.contains ty = false := by
        rw [List.contains_eq_any_beq, List.any_eq_false]
        intro other hother
        rw [Ty.beq_comm, (List.pairwise_append.mp h).2.2 other hother ty (by simp)]
        exact Bool.false_ne_true
      have hrest : distinctAfter (seen ++ [ty]) rest = rest := ih (by simpa using h)
      simp [distinctAfter, hnew, hrest]

/-- A list of different types is its own list of first occurrences. -/
lemma distinct_of_pairwise {types : List Ty}
    (h : types.Pairwise fun a b => (a == b) = false) : distinct types = types :=
  distinctAfter_of_pairwise h

lemma exists_mem_distinctAfter {seen types : List Ty} {ty : Ty} (h : ty ∈ types) :
    (∃ met ∈ seen, (met == ty) = true) ∨
      ∃ first ∈ distinctAfter seen types, (first == ty) = true := by
  induction types generalizing seen with
  | nil => simp at h
  | cons next rest ih =>
      by_cases hmet : seen.contains next = true
      · rcases List.mem_cons.mp h with rfl | h
        · obtain ⟨met, hmem, hsame⟩ := by
            simpa [List.contains_eq_any_beq] using hmet
          exact .inl ⟨met, hmem, by rwa [Ty.beq_comm]⟩
        · simpa [distinctAfter, hmet] using ih h
      · simp only [distinctAfter, hmet, Bool.false_eq_true, if_false]
        rcases List.mem_cons.mp h with rfl | h
        · exact .inr ⟨ty, by simp, BEq.refl ty⟩
        · rcases @ih (seen ++ [next]) h with ⟨met, hmem, hsame⟩ | ⟨first, hmem, hsame⟩
          · rcases List.mem_append.mp hmem with hmem | hmem
            · exact .inl ⟨met, hmem, hsame⟩
            · obtain rfl := List.mem_singleton.mp hmem
              exact .inr ⟨met, by simp, hsame⟩
          · exact .inr ⟨first, List.mem_cons_of_mem _ hmem, hsame⟩

/-- Every listed type is the same as some first occurrence. -/
lemma exists_mem_distinct {types : List Ty} {ty : Ty} (h : ty ∈ types) :
    ∃ first ∈ distinct types, (first == ty) = true := by
  rcases @exists_mem_distinctAfter [] types ty h with ⟨met, hmem, -⟩ | hfirst
  · simp at hmem
  · exact hfirst

namespace Checker

/-! ## Implication as the checker answers it -/

section Implication

variable (checker : Checker)

/-- The checker takes one bound for an instance of the other. -/
def Implies (bound other : Ty) : Prop :=
  checker.answer (checker.assignable (some bound) other none) = .ok true

instance (bound other : Ty) : Decidable (checker.Implies bound other) :=
  inferInstanceAs (Decidable (_ = _))

/-- The checker denies that one bound is an instance of the other. -/
def Spares (bound other : Ty) : Prop :=
  checker.answer (checker.assignable (some bound) other none) = .ok false

instance (bound other : Ty) : Decidable (checker.Spares bound other) :=
  inferInstanceAs (Decidable (_ = _))

/-- Neither of two bounds implies the other. -/
def Unrelated (a b : Ty) : Prop :=
  checker.Spares a b ∧ checker.Spares b a

/-- What a bound is dropped for: an earlier bound that implies it, or a later one that does and is
not implied by it. -/
def Redundant (earlier : List Ty) (bound : Ty) (later : List Ty) : Prop :=
  (∃ other ∈ earlier, checker.Implies other bound) ∨
    ∃ other ∈ later, checker.Implies other bound ∧ checker.Spares bound other

/-- What a bound is kept for: no earlier bound implies it, and no later one that it does not
imply. -/
def Needed (earlier : List Ty) (bound : Ty) (later : List Ty) : Prop :=
  (∀ other ∈ earlier, checker.Spares other bound) ∧
    ∀ other ∈ later, checker.Spares other bound ∨
      checker.Implies other bound ∧ checker.Implies bound other

/-- What is left of a list of bounds that follow some earlier ones. -/
inductive Sieved : List Ty → List Ty → List Ty → Prop
  | nil {earlier : List Ty} : Sieved earlier [] []
  | keep {earlier : List Ty} {bound : Ty} {later kept : List Ty}
      (hneeded : checker.Needed earlier bound later)
      (rest : Sieved (earlier ++ [bound]) later kept) :
      Sieved earlier (bound :: later) (bound :: kept)
  | drop {earlier : List Ty} {bound : Ty} {later kept : List Ty}
      (hredundant : checker.Redundant earlier bound later)
      (rest : Sieved (earlier ++ [bound]) later kept) :
      Sieved earlier (bound :: later) kept

end Implication

variable {checker : Checker} {earlier bounds kept out : List Ty} {a b : Ty}

lemma Spares.not_implies (h : checker.Spares a b) : ¬ checker.Implies a b := by
  intro h'
  rw [Implies, show _ = _ from h] at h'
  simp at h'

instance : Std.Symm checker.Unrelated := ⟨fun _ _ h => ⟨h.2, h.1⟩⟩

/-! ## The program does the sieving -/

lemma of_impliedByEarlier {bound : Ty} {others : List Ty} {implied : Bool}
    (h : checker.answer (checker.impliedByEarlier bound others) = .ok implied) :
    if implied then ∃ other ∈ others, checker.Implies other bound
    else ∀ other ∈ others, checker.Spares other bound := by
  induction others with
  | nil =>
      obtain rfl : implied = false := by simpa [impliedByEarlier] using h.symm
      simp
  | cons other rest ih =>
      simp only [impliedByEarlier, answer_bind, bind_eq_ok] at h
      obtain ⟨answer, hanswer, h⟩ := h
      cases answer with
      | true =>
          obtain rfl : implied = true := by simpa using h.symm
          exact ⟨other, by simp, hanswer⟩
      | false =>
          have hrest := ih (by simpa using h)
          cases implied with
          | true =>
              obtain ⟨next, hnext, himplies⟩ := hrest
              exact ⟨next, List.mem_cons_of_mem _ hnext, himplies⟩
          | false => exact List.forall_mem_cons.mpr ⟨hanswer, hrest⟩

lemma of_impliedByLater {bound : Ty} {others : List Ty} {implied : Bool}
    (h : checker.answer (checker.impliedByLater bound others) = .ok implied) :
    if implied then
      ∃ other ∈ others, checker.Implies other bound ∧ checker.Spares bound other
    else
      ∀ other ∈ others, checker.Spares other bound ∨
        checker.Implies other bound ∧ checker.Implies bound other := by
  induction others with
  | nil =>
      obtain rfl : implied = false := by simpa [impliedByLater] using h.symm
      simp
  | cons other rest ih =>
      -- A bound that gives no reason to drop this one is passed.
      have hpass (hother : checker.Spares other bound ∨
            checker.Implies other bound ∧ checker.Implies bound other)
          (hrest : checker.answer (checker.impliedByLater bound rest) = .ok implied) :
          if implied then
            ∃ next ∈ other :: rest, checker.Implies next bound ∧ checker.Spares bound next
          else
            ∀ next ∈ other :: rest, checker.Spares next bound ∨
              checker.Implies next bound ∧ checker.Implies bound next := by
        have hrest := ih hrest
        cases implied with
        | true =>
            obtain ⟨next, hnext, himplies⟩ := hrest
            exact ⟨next, List.mem_cons_of_mem _ hnext, himplies⟩
        | false => exact List.forall_mem_cons.mpr ⟨hother, hrest⟩
      simp only [impliedByLater, answer_bind, bind_eq_ok] at h
      obtain ⟨forth, hforth, h⟩ := h
      cases forth with
      | false => exact hpass (.inl hforth) (by simpa using h)
      | true =>
          simp only [if_true, answer_bind, bind_eq_ok] at h
          obtain ⟨back, hback, h⟩ := h
          cases back with
          | false =>
              obtain rfl : implied = true := by simpa using h.symm
              exact ⟨other, by simp, hforth, hback⟩
          | true => exact hpass (.inr ⟨hforth, hback⟩) (by simpa using h)

/-- **What the program leaves of a list is what sieving leaves of it.** -/
lemma sieved_of_survivors (h : checker.answer (checker.survivors earlier bounds) = .ok kept) :
    checker.Sieved earlier bounds kept := by
  induction bounds generalizing earlier kept with
  | nil =>
      obtain rfl : kept = [] := by simpa [survivors] using h.symm
      exact .nil
  | cons bound later ih =>
      simp only [survivors, answer_bind, bind_eq_ok] at h
      obtain ⟨before, hbefore, h⟩ := h
      have hbefore := of_impliedByEarlier hbefore
      cases before with
      | true =>
          simp only [if_true, pure_bind, answer_bind, bind_eq_ok, answer_pure] at h
          obtain ⟨rest, hrest, h⟩ := h
          obtain rfl : rest = kept := Except.ok.inj h
          exact .drop (.inl hbefore) (ih hrest)
      | false =>
          simp only [Bool.false_eq_true, if_false, answer_bind, bind_eq_ok, answer_pure] at h
          obtain ⟨implied, himplied, rest, hrest, h⟩ := h
          have hafter := of_impliedByLater himplied
          cases implied with
          | true =>
              obtain rfl : rest = kept := Except.ok.inj h
              exact .drop (.inr hafter) (ih hrest)
          | false =>
              obtain rfl : bound :: rest = kept := Except.ok.inj h
              exact .keep ⟨hbefore, hafter⟩ (ih hrest)

/-! ## What sieving leaves -/

lemma Sieved.sublist (h : checker.Sieved earlier bounds kept) : kept.Sublist bounds := by
  induction h with
  | nil => exact .slnil
  | keep _ _ ih => exact ih.cons_cons _
  | drop _ _ ih => exact ih.cons _

/-- No earlier bound implies one that is kept. -/
lemma Sieved.spares (h : checker.Sieved earlier bounds kept) :
    ∀ bound ∈ kept, ∀ other ∈ earlier, checker.Spares other bound := by
  induction h with
  | nil => simp
  | keep hneeded _ ih =>
      refine List.forall_mem_cons.mpr ⟨hneeded.1, fun bound hbound other hother => ?_⟩
      exact ih bound hbound other (List.mem_append_left _ hother)
  | drop _ _ ih =>
      exact fun bound hbound other hother => ih bound hbound other (List.mem_append_left _ hother)

/-- **Of two bounds that are kept neither implies the other**: the later one is not implied by the
earlier one, so that the earlier one would have been dropped if it were implied by the later one. -/
lemma Sieved.pairwise (h : checker.Sieved earlier bounds kept) :
    kept.Pairwise checker.Unrelated := by
  induction h with
  | nil => exact .nil
  | @keep earlier bound later kept hneeded hrest ih =>
      refine .cons (fun other hother => ?_) ih
      have hforth : checker.Spares bound other := hrest.spares other hother bound (by simp)
      refine ⟨hforth, ?_⟩
      rcases hneeded.2 other (hrest.sublist.subset hother) with hback | ⟨-, himplies⟩
      · exact hback
      · exact absurd himplies hforth.not_implies
  | drop _ _ ih => exact ih

/-- A bound of the list is kept, or redundant beside those before and those after it. -/
lemma Sieved.kept_or_redundant (h : checker.Sieved earlier bounds kept) {before after : List Ty}
    {bound : Ty} (hbounds : bounds = before ++ bound :: after) :
    bound ∈ kept ∨ checker.Redundant (earlier ++ before) bound after := by
  induction h generalizing before with
  | nil => simp at hbounds
  | @keep earlier first later kept _ _ ih =>
      cases before with
      | nil =>
          obtain ⟨rfl, rfl⟩ := by simpa using hbounds
          exact .inl (by simp)
      | cons _ before =>
          obtain ⟨rfl, rfl⟩ := by simpa using hbounds
          simpa using (ih rfl).imp_left (List.mem_cons_of_mem first)
  | @drop earlier first later kept hredundant _ ih =>
      cases before with
      | nil =>
          obtain ⟨rfl, rfl⟩ := by simpa using hbounds
          exact .inr (by simpa using hredundant)
      | cons _ before =>
          obtain ⟨rfl, rfl⟩ := by simpa using hbounds
          simpa using ih rfl

/-! ## What is not redundant stays -/

lemma impliedByEarlier_of_spares {bound : Ty} {others : List Ty}
    (h : ∀ other ∈ others, checker.Spares other bound) :
    checker.answer (checker.impliedByEarlier bound others) = .ok false := by
  induction others with
  | nil => simp [impliedByEarlier]
  | cons other rest ih =>
      have hother : checker.answer (checker.assignable (some other) bound none) = .ok false :=
        h other (by simp)
      simp [impliedByEarlier, hother, ih fun next hnext => h next (List.mem_cons_of_mem _ hnext)]

lemma impliedByLater_of_spares {bound : Ty} {others : List Ty}
    (h : ∀ other ∈ others, checker.Spares other bound) :
    checker.answer (checker.impliedByLater bound others) = .ok false := by
  induction others with
  | nil => simp [impliedByLater]
  | cons other rest ih =>
      have hother : checker.answer (checker.assignable (some other) bound none) = .ok false :=
        h other (by simp)
      simp [impliedByLater, hother, ih fun next hnext => h next (List.mem_cons_of_mem _ hnext)]

/-- Where no bound implies another, all of them survive. -/
lemma survivors_of_pairwise (h : (earlier ++ bounds).Pairwise checker.Unrelated) :
    checker.answer (checker.survivors earlier bounds) = .ok bounds := by
  induction bounds generalizing earlier with
  | nil => simp [survivors]
  | cons bound later ih =>
      have hpair := List.pairwise_append.mp h
      have hbefore := impliedByEarlier_of_spares fun other hother =>
        (hpair.2.2 other hother bound (by simp)).1
      have hafter := impliedByLater_of_spares fun other hother =>
        (List.rel_of_pairwise_cons hpair.2.1 hother).2
      have hrest : checker.answer (checker.survivors (earlier ++ [bound]) later) = .ok later :=
        ih (by simpa using h)
      simp only [survivors, answer_bind, hbefore, ok_bind, Bool.false_eq_true, if_false, hafter,
        hrest, answer_pure]

/-! ## Normal bound lists -/

/-- What is left after sieving is the answer, if anything is left. -/
lemma answer_normalizeBounds
    (h : checker.answer (checker.survivors [] (distinct bounds)) = .ok kept) (hne : kept ≠ []) :
    checker.answer (checker.normalizeBounds bounds) = .ok kept := by
  unfold normalizeBounds
  rcases hdistinct : distinct bounds with _ | ⟨first, _ | ⟨second, rest⟩⟩
  · rw [hdistinct] at h
    exact absurd (by simpa [survivors] using h.symm) hne
  · simpa [hdistinct, survivors, impliedByEarlier, impliedByLater] using h
  · rw [hdistinct] at h
    obtain ⟨kept, others, rfl⟩ := List.exists_cons_of_ne_nil hne
    simp [h]

/-- **The answer is what sieving leaves, or the first bound if it leaves none.** -/
lemma of_normalizeBounds (h : checker.answer (checker.normalizeBounds bounds) = .ok out) :
    ∃ kept, checker.Sieved [] (distinct bounds) kept ∧
      (kept ≠ [] ∧ out = kept ∨
        kept = [] ∧ ∃ first rest, distinct bounds = first :: rest ∧ out = [first]) := by
  unfold normalizeBounds at h
  rcases hdistinct : distinct bounds with _ | ⟨first, _ | ⟨second, rest⟩⟩
  · simp [hdistinct] at h
  · obtain rfl : out = [first] := by simpa [hdistinct] using h.symm
    exact ⟨[first], .keep ⟨by simp, by simp⟩ .nil, .inl ⟨by simp, rfl⟩⟩
  · simp only [hdistinct, answer_bind, bind_eq_ok] at h
    obtain ⟨kept, hkept, h⟩ := h
    refine ⟨kept, sieved_of_survivors hkept, ?_⟩
    cases kept with
    | nil => exact .inr ⟨rfl, first, second :: rest, rfl, by simpa using h.symm⟩
    | cons kept others => exact .inl ⟨by simp, by simpa using h.symm⟩

/-- **What normalization leaves of a bound list is normal**: it is not empty, consists of first
occurrences in the order of the list, no two of its members are the same type or imply one another,
and a second round leaves it as it is.  None of this asks anything of the store, the options or the
bounds: all of it comes from which of two bounds is asked for first. -/
theorem normalizeBounds_normal (checker : Checker) (bounds out : List Ty)
    (h : checker.answer (checker.normalizeBounds bounds) = .ok out) :
    out ≠ [] ∧ out.Sublist bounds.eraseDups ∧
      (out.Pairwise fun a b => (a == b) = false) ∧
      (∀ a ∈ out, ∀ b ∈ out, (a == b) = false →
        checker.answer (checker.assignable (some a) b none) = .ok false) ∧
      checker.answer (checker.normalizeBounds out) = .ok out := by
  obtain ⟨kept, hsieved, hout⟩ := of_normalizeBounds h
  obtain ⟨hne, hsub, hpair⟩ : out ≠ [] ∧ out.Sublist (distinct bounds) ∧
      out.Pairwise checker.Unrelated := by
    rcases hout with ⟨hne, rfl⟩ | ⟨-, first, rest, hdistinct, rfl⟩
    · exact ⟨hne, hsieved.sublist, hsieved.pairwise⟩
    · rw [hdistinct]
      exact ⟨by simp, by simp, List.pairwise_singleton _ _⟩
  have hdifferent := (pairwise_distinct bounds).sublist hsub
  refine ⟨hne, distinct_eq_eraseDups bounds ▸ hsub, hdifferent, fun a ha b hb hab => ?_, ?_⟩
  · have hne : a ≠ b := by
      rintro rfl
      simp at hab
    exact (hpair.forall ha hb hne).1
  · refine answer_normalizeBounds ?_ hne
    rw [distinct_of_pairwise hdifferent]
    exact survivors_of_pairwise hpair

/-- `Number & Object` is just `Number`. -/
theorem numberAndObject_normal :
    let checker : Checker := { store := .core }
    let number := Ty.cls checker.store.wellKnown.number
    let object := Ty.cls checker.store.wellKnown.object
    checker.answer (checker.normalizeBounds [object, number, object]) = .ok [number] ∧
      [number].Sublist [object, number, object].eraseDups ∧
      checker.answer (checker.normalizeBounds [number]) = .ok [number] := by
  intro checker number object
  have hforth : checker.answer (checker.assignable (some number) object none) = .ok true := by
    decide +kernel
  have hback : checker.answer (checker.assignable (some object) number none) = .ok false := by
    decide +kernel
  have hdistinct : distinct [object, number, object] = [object, number] := rfl
  have h : checker.answer (checker.normalizeBounds [object, number, object]) = .ok [number] := by
    refine answer_normalizeBounds ?_ (by simp)
    simp [hdistinct, survivors, impliedByEarlier, impliedByLater, hforth, hback]
  obtain ⟨-, hsub, -, -, hagain⟩ := normalizeBounds_normal checker _ _ h
  exact ⟨h, hsub, hagain⟩

/-! ## What is left stands for the whole list -/

/-- Two implications one after the other that make one, where the middle one is dropped. -/
def TransAt (checker : Checker) (bounds : List Ty) (middle : Ty) : Prop :=
  ∀ a ∈ bounds, ∀ b ∈ bounds, checker.Implies a middle → checker.Implies middle b →
    checker.Implies a b

instance (checker : Checker) (bounds : List Ty) (middle : Ty) :
    Decidable (checker.TransAt bounds middle) :=
  inferInstanceAs (Decidable (∀ a ∈ bounds, ∀ b ∈ bounds, _ → _ → _))

/-- One bound does away with another, both of which are dropped: it implies it, and comes first if
they imply one another. -/
def Displaces (checker : Checker) (bounds out : List Ty) (j i : Fin bounds.length) : Prop :=
  bounds[j] ∉ out ∧ bounds[i] ∉ out ∧ checker.Implies bounds[j] bounds[i] ∧
    (checker.Implies bounds[i] bounds[j] → j < i)

/-- **Displacement has no circles and no endless chains**, as far as implication is transitive at
the dropped bounds: two bounds that imply one another are told apart by their places. -/
lemma displaces_wellFounded (htrans : ∀ c ∈ bounds, c ∉ out → checker.TransAt bounds c) :
    WellFounded (checker.Displaces bounds out) := by
  have : IsTrans (Fin bounds.length) (checker.Displaces bounds out) := by
    refine ⟨fun k j i ⟨hk, hj, hkj, hkj'⟩ ⟨_, hi, hji, hji'⟩ => ⟨hk, hi, ?_, fun hik => ?_⟩⟩
    · exact htrans _ (List.getElem_mem _) hj _ (List.getElem_mem _) _ (List.getElem_mem _) hkj hji
    · have hij : checker.Implies bounds[i] bounds[j] :=
        htrans _ (List.getElem_mem _) hk _ (List.getElem_mem _) _ (List.getElem_mem _) hik hkj
      have hjk : checker.Implies bounds[j] bounds[k] :=
        htrans _ (List.getElem_mem _) hi _ (List.getElem_mem _) _ (List.getElem_mem _) hji hik
      exact (hkj' hjk).trans (hji' hij)
  have : Std.Irrefl (checker.Displaces bounds out) :=
    ⟨fun i hself => (hself.2.2.2 hself.2.2.1).false⟩
  exact Finite.wellFounded_of_trans_of_irrefl _

/-- A bound that is not kept is implied by another one, which comes first if they imply one
another. -/
lemma Sieved.exists_implies (h : checker.Sieved [] bounds kept) (i : Fin bounds.length)
    (hi : bounds[i] ∉ kept) :
    ∃ j : Fin bounds.length, j ≠ i ∧ checker.Implies bounds[j] bounds[i] ∧
      (checker.Implies bounds[i] bounds[j] → j < i) := by
  have hsplit : bounds = bounds.take i ++ bounds[i] :: bounds.drop (i + 1) := by simp
  rcases (h.kept_or_redundant hsplit).resolve_left hi with
    ⟨other, hother, himplies⟩ | ⟨other, hother, himplies, hspares⟩
  · obtain ⟨j, hj, rfl⟩ := List.mem_take_iff_getElem.mp (by simpa using hother)
    have hji : j < i := (lt_min_iff.mp hj).1
    exact ⟨⟨j, hji.trans i.isLt⟩, Fin.ne_of_lt hji, himplies, fun _ => hji⟩
  · obtain ⟨j, hj, rfl⟩ := List.mem_drop_iff_getElem.mp hother
    refine ⟨⟨i + 1 + j, by omega⟩, Fin.ne_of_gt ?_, himplies, fun hback => ?_⟩
    · exact show (i : ℕ) < i + 1 + j by omega
    · exact absurd hback hspares.not_implies

/-- **Every bound is implied by one that is left**, as far as implication is transitive at the
dropped bounds. -/
lemma Sieved.covers (h : checker.Sieved [] bounds kept)
    (hkept : kept ⊆ out) (hout : out ⊆ bounds)
    (htrans : ∀ c ∈ bounds, c ∉ out → checker.TransAt bounds c) :
    ∀ b ∈ bounds, ∃ s ∈ out, s = b ∨ checker.Implies s b := by
  -- The induction follows the chain of displaced bounds back to one that is left.
  suffices hall : ∀ i : Fin bounds.length, ∃ s ∈ out, s = bounds[i] ∨ checker.Implies s bounds[i] by
    intro b hb
    obtain ⟨i, hi, rfl⟩ := List.getElem_of_mem hb
    exact hall ⟨i, hi⟩
  intro i
  induction i using (displaces_wellFounded htrans).induction with
  | _ i ih =>
      by_cases hi : bounds[i] ∈ out
      · exact ⟨_, hi, .inl rfl⟩
      obtain ⟨j, -, hji, hfirst⟩ := h.exists_implies i (fun hmem => hi (hkept hmem))
      by_cases hj : bounds[j] ∈ out
      · exact ⟨_, hj, .inr hji⟩
      obtain ⟨s, hs, heq | hsj⟩ := ih j ⟨hj, hi, hji, hfirst⟩
      · exact absurd (heq ▸ hs) hj
      · exact ⟨s, hs, .inr (htrans _ (List.getElem_mem _) hj s (hout hs) _ (List.getElem_mem _)
          hsj hji)⟩

/-- A type implies itself, whatever the owners. -/
lemma implies_of_beq (h : (a == b) = true) : checker.Implies a b := by
  have hsame : (some a == some b) = true := h
  simp [Implies, assignable, fuel, assignWithin, assignStep, hsame]

/-- **No bound is dropped without another one in the list that implies it.**  That other one may be
dropped in its turn; where it can be skipped, that is where what implies it implies all that it
implies, something of what is left implies each bound of the list. -/
theorem normalizeBounds_covers (checker : Checker) (bounds out : List Ty)
    (h : checker.answer (checker.normalizeBounds bounds) = .ok out) :
    (∀ b ∈ bounds.eraseDups, b ∈ out ∨
      ∃ other ∈ bounds.eraseDups, (other == b) = false ∧ checker.Implies other b) ∧
    ((∀ c ∈ bounds, (∀ s ∈ out, (s == c) = false) → checker.TransAt bounds c) →
      ∀ b ∈ bounds, ∃ s ∈ out, (s == b) = true ∨ checker.Implies s b) := by
  obtain ⟨kept, hsieved, hout⟩ := of_normalizeBounds h
  obtain ⟨hkept, hsub⟩ : kept ⊆ out ∧ out.Sublist (distinct bounds) := by
    rcases hout with ⟨-, rfl⟩ | ⟨rfl, first, rest, hdistinct, rfl⟩
    · exact ⟨List.Subset.refl _, hsieved.sublist⟩
    · simp [hdistinct]
  have hlisted : distinct bounds ⊆ bounds := (distinctAfter_sublist [] bounds).subset
  have hdifferent : ∀ a ∈ distinct bounds, ∀ b ∈ distinct bounds, a ≠ b → (a == b) = false :=
    fun a ha b hb hab => by
      have : Std.Symm fun a b : Ty => (a == b) = false := ⟨fun a b h => by rwa [Ty.beq_comm]⟩
      exact (pairwise_distinct bounds).forall ha hb hab
  rw [← distinct_eq_eraseDups]
  refine ⟨fun b hb => ?_, fun htrans b hb => ?_⟩
  · by_cases hmem : b ∈ out
    · exact .inl hmem
    obtain ⟨i, hi, rfl⟩ := List.getElem_of_mem hb
    obtain ⟨j, hji, himplies, -⟩ :=
      hsieved.exists_implies ⟨i, hi⟩ (fun hkeep => hmem (hkept hkeep))
    have hne : ((distinct bounds)[j] == (distinct bounds)[i]) = false := by
      rcases Nat.lt_or_gt_of_ne (Fin.val_ne_of_ne hji) with hlt | hlt
      · exact List.pairwise_iff_getElem.mp (pairwise_distinct bounds) _ _ j.isLt hi hlt
      · rw [Ty.beq_comm]
        exact List.pairwise_iff_getElem.mp (pairwise_distinct bounds) _ _ hi j.isLt hlt
    exact .inr ⟨_, List.getElem_mem _, hne, himplies⟩
  · have hpassed : ∀ c ∈ distinct bounds, c ∉ out → checker.TransAt bounds c :=
      fun c hc hnot => htrans c (hlisted hc) fun s hs =>
        hdifferent s (hsub.subset hs) c hc (fun heq => hnot (heq ▸ hs))
    obtain ⟨first, hfirst, hsame⟩ := exists_mem_distinct hb
    obtain ⟨s, hs, rfl | himplies⟩ := hsieved.covers hkept hsub.subset
      (fun c hc hnot a ha b hb => hpassed c hc hnot a (hlisted ha) b (hlisted hb))
      first hfirst
    · exact ⟨s, hs, .inl hsame⟩
    · by_cases hmem : first ∈ out
      · exact ⟨first, hmem, .inl hsame⟩
      · exact ⟨s, hs, .inr (hpassed first hfirst hmem s (hlisted (hsub.subset hs)) b hb himplies
          (implies_of_beq hsame))⟩

/-- Of `Object & Comparable<Integer> & Integer` only `Integer` is left, and it stands for all. -/
theorem integer_covers :
    let checker : Checker := { store := .core }
    let object := Ty.cls checker.store.wellKnown.object
    let integer := Ty.cls checker.store.wellKnown.integer
    let comparable := Ty.app ⟨4⟩ [integer]
    let bounds := [object, comparable, integer]
    checker.answer (checker.normalizeBounds bounds) = .ok [integer] ∧
      ∀ b ∈ bounds, ∃ s ∈ [integer], (s == b) = true ∨ checker.Implies s b := by
  intro checker object integer comparable bounds
  have hfirst : checker.Implies comparable object ∧ checker.Spares object comparable := by
    decide +kernel
  have hsecond : checker.Implies integer comparable ∧ checker.Spares comparable integer := by
    decide +kernel
  have hthird : checker.Spares object integer := by decide +kernel
  have hdistinct : distinct bounds = bounds := distinct_of_pairwise (by decide +kernel)
  have h : checker.answer (checker.normalizeBounds bounds) = .ok [integer] := by
    refine answer_normalizeBounds ?_ (by simp)
    rw [Implies, Spares] at hfirst hsecond
    rw [Spares] at hthird
    simp [hdistinct, bounds, survivors, impliedByEarlier, impliedByLater, hfirst, hsecond, hthird]
  have htrans : ∀ c ∈ bounds, (∀ s ∈ [integer], (s == c) = false) →
      checker.TransAt bounds c := by decide +kernel
  exact ⟨h, (normalizeBounds_covers checker bounds _ h).2 htrans⟩

/-- **A raw type between two of its instances**: `List<String>` implies `List`, which comes before
`List<Integer>` and implies that, so that both are dropped; and `List<String>`, which is left, does
not imply `List<Integer>`. -/
theorem rawList_not_covered :
    let checker : Checker := { store := .collections }
    let list := Ty.cls ⟨25⟩
    let strings := Ty.app ⟨25⟩ [.cls checker.store.wellKnown.string]
    let integers := Ty.app ⟨25⟩ [.cls checker.store.wellKnown.integer]
    checker.answer (checker.normalizeBounds [strings, list, integers]) = .ok [strings] ∧
      ¬ ∀ b ∈ [strings, list, integers], ∃ s ∈ [strings],
        (s == b) = true ∨ checker.Implies s b := by
  intro checker list strings integers
  have hstrings : checker.Implies strings list ∧ checker.Implies list strings := by
    decide +kernel
  have hintegers : checker.Implies integers list ∧ checker.Implies list integers := by
    decide +kernel
  have hspares : checker.Spares strings integers ∧ checker.Spares integers strings := by
    decide +kernel
  have hdistinct : distinct [strings, list, integers] = [strings, list, integers] :=
    distinct_of_pairwise (by decide +kernel)
  refine ⟨?_, fun hcovers => ?_⟩
  · refine answer_normalizeBounds ?_ (by simp)
    rw [Implies, Implies] at hstrings hintegers
    rw [Spares, Spares] at hspares
    simp [hdistinct, survivors, impliedByEarlier, impliedByLater, hstrings, hintegers, hspares]
  · obtain ⟨s, hs, h⟩ := hcovers integers (by simp)
    obtain rfl := List.mem_singleton.mp hs
    rcases h with hsame | himplies
    · exact absurd hsame (by decide)
    · exact hspares.1.not_implies himplies

end Checker

end JavaGenerics
