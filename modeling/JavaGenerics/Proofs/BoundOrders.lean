import JavaGenerics.Arguments
import JavaGenerics.Store.Stock
import JavaGenerics.Proofs.Answering

/-!
# Bounds, one binding after the other

Whether bindings respect the bounds of the variables they bind is checked one binding at a time, and
the check ends with the first one that does not.  Nobody says which one comes first: bindings are a
finite map, and a map may list its entries in any order.

* `Checker.verdict` — what the check says about a single entry.  All bindings are in force
  meanwhile, so it does not depend on the order.
* `Checker.answer_entriesSatisfy` — **the answer is the verdict on the first entry that does not
  pass.**
* `Checker.exists_order_iff` — so the answers that the orders give are the verdicts on such entries,
  and yes if there is none.  `Checker.satisfiesBounds` is put with one of these orders, whichever
  the map happens to have (`Bindings.Order`).
* `Checker.answer_any_order_iff` — **the order does not matter exactly if all entries that do not
  pass have one verdict.**  It matters where one entry is out of bounds and the check of another one
  fails: `violatedAndCyclic_answers`.
-/

namespace JavaGenerics

namespace Checker

variable (checker : Checker) (map : Bindings)

/-! ## One entry -/

/-- What the check says about one entry, with all bindings in force. -/
def verdict (entry : TypeVarId × Ty) : Except DeclError Bool :=
  checker.answer do
    let bounds ← checker.varBounds entry.1
    checker.withinBounds map entry.2 bounds

/-- The entry is within its bounds. -/
def InBounds (entry : TypeVarId × Ty) : Prop :=
  checker.verdict map entry = .ok true

lemma answer_entriesSatisfy_nil : checker.answer (checker.entriesSatisfy map []) = .ok true := rfl

/-- The check goes on past an entry that passes. -/
lemma answer_entriesSatisfy_cons_of_inBounds {entry : TypeVarId × Ty}
    (h : checker.InBounds map entry) (rest : List (TypeVarId × Ty)) :
    checker.answer (checker.entriesSatisfy map (entry :: rest)) =
      checker.answer (checker.entriesSatisfy map rest) := by
  simp only [InBounds, verdict, answer_bind, answer_lift] at h
  obtain ⟨bounds, hbounds, hwithin⟩ := bind_eq_ok.mp h
  simp [entriesSatisfy, hbounds, hwithin]

/-- It ends at an entry that does not, with the verdict on that entry. -/
lemma answer_entriesSatisfy_cons_of_not_inBounds {entry : TypeVarId × Ty}
    (h : ¬ checker.InBounds map entry) (rest : List (TypeVarId × Ty)) :
    checker.answer (checker.entriesSatisfy map (entry :: rest)) = checker.verdict map entry := by
  simp only [InBounds, verdict, answer_bind, answer_lift] at h ⊢
  simp only [entriesSatisfy, answer_bind, answer_lift]
  cases hbounds : checker.varBounds entry.1 with
  | error e => rfl
  | ok bounds =>
      rw [hbounds, ok_bind] at h
      rw [ok_bind, ok_bind]
      cases hwithin : checker.answer (checker.withinBounds map entry.2 bounds) with
      | error e => rfl
      | ok within =>
          cases within with
          | false => rfl
          | true => exact absurd hwithin h

/-! ## All entries in some order -/

/-- **The answer is the verdict on the first entry that does not pass**, or yes if all of them
do. -/
lemma answer_entriesSatisfy (order : List (TypeVarId × Ty)) :
    ((∀ entry ∈ order, checker.InBounds map entry) ∧
        checker.answer (checker.entriesSatisfy map order) = .ok true) ∨
      ∃ before entry behind, order = before ++ entry :: behind ∧
        (∀ other ∈ before, checker.InBounds map other) ∧ ¬ checker.InBounds map entry ∧
        checker.answer (checker.entriesSatisfy map order) = checker.verdict map entry := by
  induction order with
  | nil => exact Or.inl ⟨by simp, checker.answer_entriesSatisfy_nil map⟩
  | cons first rest ih =>
      by_cases hfirst : checker.InBounds map first
      · rw [checker.answer_entriesSatisfy_cons_of_inBounds map hfirst]
        rcases ih with ⟨hall, hanswer⟩ | ⟨before, entry, behind, rfl, hbefore, hentry, hanswer⟩
        · exact Or.inl ⟨List.forall_mem_cons.mpr ⟨hfirst, hall⟩, hanswer⟩
        · exact Or.inr ⟨first :: before, entry, behind, rfl,
            List.forall_mem_cons.mpr ⟨hfirst, hbefore⟩, hentry, hanswer⟩
      · exact Or.inr ⟨[], first, rest, rfl, by simp, hfirst,
          checker.answer_entriesSatisfy_cons_of_not_inBounds map hfirst rest⟩

/-- **The answers that some order gives**: yes if all entries pass, and else the verdict on any of
those that do not. -/
lemma exists_order_iff (entries : List (TypeVarId × Ty)) (result : Except DeclError Bool) :
    (∃ order, order.Perm entries ∧
        checker.answer (checker.entriesSatisfy map order) = result) ↔
      (result = .ok true ∧ ∀ entry ∈ entries, checker.InBounds map entry) ∨
        ∃ entry ∈ entries, ¬ checker.InBounds map entry ∧ checker.verdict map entry = result := by
  constructor
  · rintro ⟨order, hperm, rfl⟩
    rcases checker.answer_entriesSatisfy map order with
      ⟨hall, hanswer⟩ | ⟨before, entry, behind, rfl, -, hentry, hanswer⟩
    · exact Or.inl ⟨hanswer, fun entry hmem => hall entry (hperm.mem_iff.mpr hmem)⟩
    · exact Or.inr ⟨entry, hperm.mem_iff.mp (by simp), hentry, hanswer.symm⟩
  · rintro (⟨rfl, hall⟩ | ⟨entry, hmem, hentry, rfl⟩)
    · refine ⟨entries, List.Perm.refl _, ?_⟩
      rcases checker.answer_entriesSatisfy map entries with
        ⟨-, hanswer⟩ | ⟨before, entry, behind, rfl, -, hentry, -⟩
      · exact hanswer
      · exact absurd (hall entry (by simp)) hentry
    · -- an order that begins with the entry
      obtain ⟨before, behind, rfl⟩ := List.append_of_mem hmem
      exact ⟨entry :: (before ++ behind), List.perm_middle.symm,
        checker.answer_entriesSatisfy_cons_of_not_inBounds map hentry _⟩

/-- **When the order of the bindings matters.**  The answers to the question whether bindings
respect their bounds, in whatever order they are listed, are these: yes, if every binding passes,
and else the verdict on any binding that does not.  So any two orders give the same answer exactly
if all bindings that do not pass have the same verdict: all of them are out of bounds, or the check
fails for all of them, and with one error. -/
theorem answer_any_order_iff :
    (∀ result, (∃ order, order.Perm map.toList ∧
        checker.answer (checker.entriesSatisfy map order) = result) ↔
      (result = .ok true ∧ ∀ entry ∈ map.toList, checker.verdict map entry = .ok true) ∨
        ∃ entry ∈ map.toList,
          checker.verdict map entry ≠ .ok true ∧ checker.verdict map entry = result) ∧
    ((∀ order other, order.Perm map.toList → other.Perm map.toList →
        checker.answer (checker.entriesSatisfy map order) =
          checker.answer (checker.entriesSatisfy map other)) ↔
      ∀ entry ∈ map.toList, ∀ other ∈ map.toList,
        checker.verdict map entry ≠ .ok true → checker.verdict map other ≠ .ok true →
          checker.verdict map entry = checker.verdict map other) := by
  refine ⟨checker.exists_order_iff map map.toList, ?_, ?_⟩
  · intro hsame entry hentry other hother hfails hfails'
    obtain ⟨order, hperm, hanswer⟩ :=
      (checker.exists_order_iff map map.toList _).mpr (Or.inr ⟨entry, hentry, hfails, rfl⟩)
    obtain ⟨order', hperm', hanswer'⟩ :=
      (checker.exists_order_iff map map.toList _).mpr (Or.inr ⟨other, hother, hfails', rfl⟩)
    rw [← hanswer, ← hanswer']
    exact hsame order order' hperm hperm'
  · intro hsame order order' hperm hperm'
    have hfound := (checker.exists_order_iff map map.toList _).mp ⟨order, hperm, rfl⟩
    have hfound' := (checker.exists_order_iff map map.toList _).mp ⟨order', hperm', rfl⟩
    rcases hfound with ⟨hyes, hall⟩ | ⟨entry, hentry, hfails, hanswer⟩
    · rcases hfound' with ⟨hyes', -⟩ | ⟨other, hother, hfails', -⟩
      · rw [hyes, hyes']
      · exact absurd (hall other hother) hfails'
    · rcases hfound' with ⟨-, hall⟩ | ⟨other, hother, hfails', hanswer'⟩
      · exact absurd (hall entry hentry) hfails
      · rw [← hanswer, ← hanswer']
        exact hsame entry hentry other hother hfails hfails'

/-! ## An order that matters -/

/-- The core store and a class `Gauge<M extends Number, L, H extends L>`. -/
def withGauge : Store :=
  let gauge : ClassDecl :=
    { name := "com.example.Gauge", params := [⟨1⟩, ⟨2⟩, ⟨3⟩],
      superclass := some Store.core.objectTy }
  let store := (Store.core.declareClass gauge).2
  let store := (store.declareParam "M" (.ofClass ⟨23⟩) [.cls store.wellKnown.number]).2
  let store := (store.declareParam "L" (.ofClass ⟨23⟩) []).2
  (store.declareParam "H" (.ofClass ⟨23⟩) [.var ⟨2⟩]).2

/-- Bindings of the parameters of `Gauge`: a string for the number `M`, `L` for itself, and an
integer for `H`, whose bound is `L`. -/
def violatedAndCyclic : List (TypeVarId × Ty) :=
  [(⟨1⟩, .cls Store.core.wellKnown.string), (⟨2⟩, .var ⟨2⟩),
    (⟨3⟩, .cls Store.core.wellKnown.integer)]

/-- **Two orders, two answers.**  The string is no number, and that is the answer if `M` is looked
at first.  The bound of `H` leads to `L` and back to it, and that is the answer if `H` is. -/
theorem violatedAndCyclic_answers :
    let checker : Checker := { store := withGauge }
    let map := Bindings.ofList violatedAndCyclic
    map.toList = violatedAndCyclic ∧ violatedAndCyclic.reverse.Perm map.toList ∧
      checker.answer (checker.entriesSatisfy map violatedAndCyclic) = .ok false ∧
      checker.answer (checker.entriesSatisfy map violatedAndCyclic.reverse) =
        .error (.cyclicVariable "L") :=
  ⟨rfl, List.reverse_perm _, rfl, rfl⟩

end Checker

end JavaGenerics
