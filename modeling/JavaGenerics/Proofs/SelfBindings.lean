import JavaGenerics.Proofs.Chains
import JavaGenerics.Proofs.Ways

/-!
# Variables bound to themselves

A class that passes its parameter on for itself binds nothing: `List<E>` inside `List` leaves `E` as
it is.  An `ArrayList<E>` with the same `E` of `List` does not: `ArrayList` passes its own parameter
on to `List`, where it is replaced by what it stands for, and that is the `E` of `List`.

* `Passing.LeadsBack` — a parameter is passed a variable that stands for the parameter itself.
* `Checker.binds_itself_iff` — **this is how a variable comes to be bound to itself, and there is no
  other way.**
* `Checker.arrayListOfListVariable_binds_itself` — the `ArrayList` above.
-/

namespace JavaGenerics

open Relation

/-- The argument is a variable that is bound, perhaps by way of others, to the parameter that it is
passed to, which is not bound itself. -/
def Passing.LeadsBack (passing : Passing) : Prop :=
  ∃ other, passing.arg = .var other ∧
    ReflTransGen passing.before.Links other passing.param ∧
    passing.before.get? passing.param = none

namespace Checker

variable {checker : Checker}

/-- Only a variable can be replaced by a variable. -/
lemma exists_replaceVar_of_substWithin {before : Bindings} {depth : Nat} {arg : Ty}
    {v : TypeVarId} (h : checker.substWithin before depth arg = .ok (.var v)) :
    ∃ other, arg = .var other ∧ checker.replaceVar other before = .ok (.var v) := by
  cases arg with
  | var other => exact ⟨other, rfl, checker.replaceVar_of_substWithin h⟩
  | _ => cases eq_subst_of_substWithin h

/-- The value of an argument is the parameter itself exactly if the argument leads back to it. -/
lemma value_eq_param_iff {passing : Passing} {depth : Nat}
    (h : checker.substWithin passing.before depth passing.arg = .ok passing.value) :
    passing.value = .var passing.param ↔ passing.LeadsBack := by
  constructor
  · intro hvalue
    rw [hvalue] at h
    obtain ⟨other, harg, hreplaced⟩ := exists_replaceVar_of_substWithin h
    exact ⟨other, harg, (checker.eq_var_iff_of_replaceVar hreplaced _).mp rfl⟩
  · rintro ⟨other, harg, hback⟩
    rw [harg] at h
    exact (checker.eq_var_iff_of_replaceVar (checker.replaceVar_of_substWithin h) _).mpr hback

/-- Whatever is passed on the way has its variables replaced. -/
lemma PassedOn.replaced {map : Bindings} {apps : List (ClassId × List Ty)} {passed : List Passing}
    (h : checker.PassedOn map apps passed) : ∀ passing ∈ passed,
      ∃ depth, checker.substWithin passing.before depth passing.arg = .ok passing.value := by
  induction h with
  | nil => simp
  | cons hfirst hrest ih =>
      intro passing hmem
      rcases List.mem_append.mp hmem with hmem | hmem
      · obtain ⟨hbefore, hvalue⟩ := hfirst.replaced passing hmem
        exact hbefore ▸ hvalue
      · exact ih passing hmem

/-- What is recorded binds a variable to itself exactly if the last argument passed to it leads back
to it. -/
lemma PassedOn.record_binds_itself {map : Bindings} {apps : List (ClassId × List Ty)}
    {passed : List Passing} (h : checker.PassedOn map apps passed) {v : TypeVarId}
    (hmap : map.get? v ≠ some (.var v)) :
    (map.record passed).get? v = some (.var v) ↔
      ∃ last, lastPassed passed v = some last ∧ last.LeadsBack := by
  rw [Bindings.get?_record]
  cases hlast : lastPassed passed v with
  | none => simpa using hmap
  | some last =>
      obtain ⟨hmem, rfl⟩ := param_of_lastPassed hlast
      obtain ⟨depth, hvalue⟩ := h.replaced last hmem
      simpa using value_eq_param_iff hvalue

/-- **A walk binds a variable to itself exactly where the argument passed to it last is a variable
that stands for it already.**  The arguments are those of the types on the way and of their owners,
each passed to the parameter in its place, those left out that are the parameters themselves.

The inherited bindings bind no variable to itself.  A walk from a primitive to a primitive binds
nothing at all. -/
theorem binds_itself_iff (checker : Checker) {subject : Ty} {target : ClassId}
    {inherited map : Bindings} (hinherited : ∀ v, inherited.get? v ≠ some (.var v))
    (h : checker.answer (checker.viewAs subject target inherited) = .ok (some map)) :
    checker.isPrimitive target = true ∧ map = .empty ∨
      ∃ way passed, checker.Way target subject way ∧
        checker.PassedOn inherited (way.flatMap Ty.applications) passed ∧
        map = inherited.record passed ∧
        ∀ v, map.get? v = some (.var v) ↔
          ∃ last, lastPassed passed v = some last ∧ last.LeadsBack := by
  rcases checker.outcome_of_walkWithin target _ subject inherited map h with
    hprimitive | ⟨way, passed, hway, hpassed, rfl⟩
  · exact Or.inl hprimitive
  · exact Or.inr ⟨way, passed, hway, hpassed, rfl,
      fun v => hpassed.record_binds_itself (hinherited v)⟩

/-- An `ArrayList<E>` with the `E` of `List`, seen as a `List`: the last argument that is passed to
this `E` is the parameter of `ArrayList`, which stands for it. -/
theorem arrayListOfListVariable_leads_back :
    let checker : Checker := { store := .collections }
    let subject : Ty := .app ⟨29⟩ [.var ⟨3⟩]
    (∀ v, Bindings.empty.get? v ≠ some (.var v)) ∧
      ∃ map, checker.answer (checker.viewAs subject ⟨25⟩ .empty) = .ok (some map) ∧
        ∃ way passed last, checker.Way ⟨25⟩ subject way ∧
          checker.PassedOn .empty (way.flatMap Ty.applications) passed ∧
          lastPassed passed ⟨3⟩ = some last ∧ last.LeadsBack := by
  intro checker subject
  have hempty : ∀ v, Bindings.empty.get? v ≠ some (.var v) := by simp
  obtain ⟨map, hmap, hself⟩ : ∃ map,
      checker.answer (checker.viewAs subject ⟨25⟩ .empty) = .ok (some map) ∧
        map.get? ⟨3⟩ = some (.var ⟨3⟩) := ⟨_, rfl, rfl⟩
  rcases binds_itself_iff checker hempty hmap with
    ⟨hprimitive, -⟩ | ⟨way, passed, hway, hpassed, -, hiff⟩
  · exact absurd hprimitive (by decide)
  · obtain ⟨last, hlast, hback⟩ := (hiff ⟨3⟩).mp hself
    exact ⟨hempty, map, hmap, way, passed, last, hway, hpassed, hlast, hback⟩

/-- The same `ArrayList`: the `E` of `List` is bound to itself, though nothing was bound before. -/
theorem arrayListOfListVariable_binds_itself :
    let checker : Checker := { store := .collections }
    (∀ v, Bindings.empty.get? v ≠ some (.var v)) ∧
      ∃ map, checker.answer (checker.viewAs (.app ⟨29⟩ [.var ⟨3⟩]) ⟨25⟩ .empty) =
          .ok (some map) ∧
        map.get? ⟨3⟩ = some (.var ⟨3⟩) :=
  ⟨by simp, _, rfl, rfl⟩

end Checker

end JavaGenerics
