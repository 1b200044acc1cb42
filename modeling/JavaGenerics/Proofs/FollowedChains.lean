import Mathlib.Data.List.Perm.Subperm
import JavaGenerics.Store.Stock
import JavaGenerics.Proofs.Chains

/-!
# How a chain of variables ends

Bindings give each variable at most one successor, so a chain of variables is fixed by where it
starts.  It may end at a type, run out at a variable that is not bound, come back to a variable it
has passed, or go on for longer than it may be followed; and of the last two, whichever shows first
decides.

* `Bindings.hop` — the variable that a chain has come to after so many steps.
* `Bindings.Apart` — the first variables of a chain differ from one another.
* `Checker.follow_eq` — **as long as no variable recurs, what is left to do is to follow the rest of
  the chain with the rest of the limit.**
* `Bindings.recurs_or_ends_or_leadsOn` — the four ways in which this can end, each of which has one
  answer.
* `Checker.endOfChain_iff` — which answer is given when, and that chains are never too long under a
  limit that is no smaller than the number of bindings.
-/

namespace JavaGenerics

namespace Bindings

/-! ## Chains -/

/-- The variable that the chain from `v` has come to after a number of steps, if it gets that
far. -/
def hop (map : Bindings) (v : TypeVarId) : Nat → Option TypeVarId
  | 0 => some v
  | n + 1 => (map.hop v n).bind fun w => (map.get? w).bind Ty.var?

/-- The first `n` variables of the chain from `v` differ from one another. -/
def Apart (map : Bindings) (v : TypeVarId) (n : Nat) : Prop :=
  ∀ i j, i < j → j < n → map.hop v i ≠ map.hop v j

/-- Within `limit` steps, and past different variables only, the chain from `v` comes to a variable
that is bound to `bound`, or to nothing. -/
def Arrives (map : Bindings) (v : TypeVarId) (limit : Nat) (bound : Option Ty) : Prop :=
  ∃ k ≤ limit, map.Apart v (k + 1) ∧ ∃ w, map.hop v k = some w ∧ map.get? w = bound

/-- Within `limit` steps, and past different variables only, the chain from `v` comes back to one of
them. -/
def Recurs (map : Bindings) (v : TypeVarId) (limit : Nat) : Prop :=
  ∃ k, 1 ≤ k ∧ k ≤ limit ∧ map.Apart v k ∧ ∃ w, map.hop v k = some w ∧ ∃ i < k, map.hop v i = some w

/-- After `limit` steps past different variables the chain from `v` leads on. -/
def LeadsOn (map : Bindings) (v : TypeVarId) (limit : Nat) : Prop :=
  map.Apart v (limit + 1) ∧ ∃ w next, map.hop v limit = some w ∧ map.get? w = some (.var next)

variable {map : Bindings} {v w : TypeVarId}

/-- One step more leads to a variable exactly if the variable before is bound to it. -/
lemma hop_succ_eq_some_iff {n : Nat} :
    map.hop v (n + 1) = some w ↔ ∃ u, map.hop v n = some u ∧ map.get? u = some (.var w) := by
  simp only [hop, Option.bind_eq_some_iff]
  constructor
  · rintro ⟨u, hu, ty, hty, hvar⟩
    cases ty with
    | var w' => exact ⟨u, hu, by simpa [Ty.var?, hty] using hvar⟩
    | _ => simp [Ty.var?] at hvar
  · rintro ⟨u, hu, hget⟩
    exact ⟨u, hu, .var w, hget, rfl⟩

lemma Apart.mono {m n : Nat} (h : map.Apart v n) (hle : m ≤ n) : map.Apart v m :=
  fun i j hij hj => h i j hij (Nat.lt_of_lt_of_le hj hle)

/-- A chain of one variable. -/
lemma apart_one : map.Apart v 1 := by
  intro i j hij hj
  omega

/-- One more variable is apart from those before it unless it is one of them. -/
lemma Apart.succ {n : Nat} (h : map.Apart v n) (hnew : ∀ i < n, map.hop v i ≠ map.hop v n) :
    map.Apart v (n + 1) := by
  intro i j hij hj
  rcases Nat.lt_succ_iff_lt_or_eq.mp hj with hlt | rfl
  · exact h i j hij hlt
  · exact hnew i hij

/-- The variables before the one a chain has come to are bound, each to the next. -/
lemma exists_hop_of_lt {n : Nat} (h : map.hop v n = some w) : ∀ i < n,
    ∃ u next, map.hop v i = some u ∧ map.get? u = some (.var next) := by
  induction n generalizing w with
  | zero => simp
  | succ n ih =>
      obtain ⟨u, hu, hget⟩ := hop_succ_eq_some_iff.mp h
      intro i hi
      rcases Nat.lt_succ_iff_lt_or_eq.mp hi with hlt | rfl
      · exact ih hu i hlt
      · exact ⟨u, w, hu, hget⟩

/-- A chain that has passed bound variables that are all different has passed no more of them than
there are bindings. -/
lemma Apart.le_size {n : Nat} (h : map.Apart v n)
    (hbound : ∀ i < n, ∃ u, map.hop v i = some u ∧ map.get? u ≠ none) : n ≤ map.size := by
  have hnodup : ((List.range n).map (map.hop v)).Nodup :=
    List.pairwise_map.mpr (List.pairwise_lt_range.imp_of_mem fun _ hj hij =>
      h _ _ hij (List.mem_range.mp hj))
  have hsub : (List.range n).map (map.hop v) ⊆ map.entries.map fun entry => some entry.1 := by
    intro reached hreached
    obtain ⟨i, hi, rfl⟩ := List.mem_map.mp hreached
    obtain ⟨u, hu, hget⟩ := hbound i (List.mem_range.mp hi)
    obtain ⟨ty, hty⟩ := Option.ne_none_iff_exists'.mp hget
    obtain ⟨before, behind, hentries, -⟩ := List.lookup_eq_some_iff.mp hty
    simp [hu, hentries]
  calc n = ((List.range n).map (map.hop v)).length := by simp
    _ ≤ (map.entries.map fun entry => some entry.1).length := (hnodup.subperm hsub).length_le
    _ = map.size := List.length_map _

/-- A chain that leads on after so many steps has passed more variables than that, all of them
bound. -/
lemma LeadsOn.lt_size {limit : Nat} (h : map.LeadsOn v limit) : limit < map.size := by
  obtain ⟨hapart, w, next, hw, hget⟩ := h
  refine hapart.le_size fun i hi => ?_
  rcases Nat.lt_succ_iff_lt_or_eq.mp hi with hlt | rfl
  · obtain ⟨u, next', hu, hget'⟩ := exists_hop_of_lt hw i hlt
    exact ⟨u, hu, by simp [hget']⟩
  · exact ⟨w, hw, by simp [hget]⟩

/-! ## Four ways to end -/

/-- Where no variable has recurred, it is the binding of the last one that decides. -/
lemma Apart.ends_or_leadsOn {n : Nat} (h : map.Apart v (n + 1)) (hw : map.hop v n = some w) :
    map.Arrives v n none ∨ (∃ ty, ty.var? = none ∧ map.Arrives v n (some ty)) ∨
      map.LeadsOn v n := by
  cases hget : map.get? w with
  | none => exact Or.inl ⟨n, Nat.le_refl n, h, w, hw, hget⟩
  | some ty =>
      cases ty with
      | var next => exact Or.inr (Or.inr ⟨h, w, next, hw, hget⟩)
      | _ => exact Or.inr (Or.inl ⟨_, rfl, n, Nat.le_refl n, h, w, hw, hget⟩)

/-- After any number of steps a chain has come back, or ended, or leads on. -/
lemma recurs_or_ends_or_leadsOn (map : Bindings) (v : TypeVarId) : ∀ n : Nat,
    map.Recurs v n ∨ map.Arrives v n none ∨ (∃ ty, ty.var? = none ∧ map.Arrives v n (some ty)) ∨
      map.LeadsOn v n
  | 0 => Or.inr (apart_one.ends_or_leadsOn rfl)
  | n + 1 => by
    rcases recurs_or_ends_or_leadsOn map v n with
      ⟨k, hpos, hk, hrest⟩ | ⟨k, hk, hrest⟩ | ⟨ty, hty, k, hk, hrest⟩ | ⟨hapart, w, next, hw, hget⟩
    · exact Or.inl ⟨k, hpos, Nat.le_succ_of_le hk, hrest⟩
    · exact Or.inr (Or.inl ⟨k, Nat.le_succ_of_le hk, hrest⟩)
    · exact Or.inr (Or.inr (Or.inl ⟨ty, hty, k, Nat.le_succ_of_le hk, hrest⟩))
    · have hnext : map.hop v (n + 1) = some next := hop_succ_eq_some_iff.mpr ⟨w, hw, hget⟩
      by_cases hback : ∃ i < n + 1, map.hop v i = some next
      · exact Or.inl ⟨n + 1, Nat.succ_pos n, Nat.le_refl _, hapart, next, hnext, hback⟩
      · have hnew : ∀ i < n + 1, map.hop v i ≠ map.hop v (n + 1) :=
          fun i hi heq => hback ⟨i, hi, heq.trans hnext⟩
        exact Or.inr ((hapart.succ hnew).ends_or_leadsOn hnext)

end Bindings

namespace Checker

variable {checker : Checker} {map : Bindings} {v : TypeVarId}

/-! ## Following the rest of a chain -/

lemma followFrom_hop {start w next : TypeVarId} {hops : Nat} {visited : List TypeVarId}
    (hget : map.get? w = some (.var next)) (hnew : next ∉ visited) :
    checker.followFrom map start (hops + 1) visited w =
      checker.followFrom map start hops (next :: visited) next := by
  rw [followFrom]
  simp [hget, hnew]

/-- **As long as no variable recurs, following a chain is following what is left of it**, with what
is left of the limit, from the variable that it has come to.  What has been visited by then are the
variables that it has passed. -/
lemma follow_eq : ∀ {n : Nat} {w : TypeVarId}, n ≤ checker.limits.maxVariableChain →
    map.hop v n = some w → map.Apart v (n + 1) →
    ∃ visited, (∀ u, u ∈ visited ↔ ∃ i < n + 1, map.hop v i = some u) ∧
      checker.follow v map =
        checker.followFrom map v (checker.limits.maxVariableChain - n) visited w
  | 0, w, _, hw, _ => by
    obtain rfl : v = w := Option.some.inj hw
    refine ⟨[v], fun u => ?_, rfl⟩
    simp [Bindings.hop, eq_comm]
  | n + 1, w, hn, hw, hapart => by
    obtain ⟨u, hu, hget⟩ := Bindings.hop_succ_eq_some_iff.mp hw
    obtain ⟨visited, hvisited, hfollow⟩ :=
      follow_eq (Nat.le_of_succ_le hn) hu (hapart.mono (Nat.le_succ _))
    have hnew : w ∉ visited := by
      intro hmem
      obtain ⟨i, hi, hiw⟩ := (hvisited w).mp hmem
      exact hapart i (n + 1) hi (Nat.lt_succ_self _) (hiw.trans hw.symm)
    have hleft : checker.limits.maxVariableChain - n =
        checker.limits.maxVariableChain - (n + 1) + 1 := by omega
    refine ⟨w :: visited, fun u' => ?_, ?_⟩
    · have hsplit : (∃ i < n + 1 + 1, map.hop v i = some u') ↔
          (∃ i < n + 1, map.hop v i = some u') ∨ map.hop v (n + 1) = some u' :=
        Nat.exists_lt_succ_right
      rw [List.mem_cons, hvisited, hsplit, hw, Option.some.injEq, or_comm, eq_comm]
    · rw [hfollow, hleft, followFrom_hop hget hnew]

/-! ## One answer for each way -/

/-- The end of a chain that comes to a type is this type. -/
lemma endOfChain_of_type {ty : Ty} (hty : ty.var? = none)
    (h : map.Arrives v checker.limits.maxVariableChain (some ty)) :
    checker.endOfChain v map = .ok (some ty) := by
  obtain ⟨k, hk, hapart, w, hw, hget⟩ := h
  obtain ⟨visited, -, hfollow⟩ := follow_eq hk hw hapart
  rw [endOfChain, hfollow, followFrom]
  cases ty with
  | var next => simp [Ty.var?] at hty
  | _ => simp [hget]

/-- A chain that comes to a variable that is not bound has no end. -/
lemma endOfChain_of_unbound (h : map.Arrives v checker.limits.maxVariableChain none) :
    checker.endOfChain v map = .ok none := by
  obtain ⟨k, hk, hapart, w, hw, hget⟩ := h
  obtain ⟨visited, -, hfollow⟩ := follow_eq hk hw hapart
  rw [endOfChain, hfollow, followFrom]
  rcases eq_or_ne w v with rfl | hstart
  · simp [hget]
  · simp [hget, hstart]

/-- A chain that comes back to a variable it has passed is reported as a cycle. -/
lemma endOfChain_of_recurs (h : map.Recurs v checker.limits.maxVariableChain) :
    checker.endOfChain v map = .error (.cyclicVariable (checker.store.varName v)) := by
  obtain ⟨k, hpos, hk, hapart, w, hw, hback⟩ := h
  obtain ⟨n, rfl⟩ := Nat.exists_eq_add_of_le' hpos
  obtain ⟨u, hu, hget⟩ := Bindings.hop_succ_eq_some_iff.mp hw
  obtain ⟨visited, hvisited, hfollow⟩ := follow_eq (Nat.le_of_succ_le hk) hu hapart
  have hmem : w ∈ visited := (hvisited w).mpr hback
  have hleft : checker.limits.maxVariableChain - n =
      checker.limits.maxVariableChain - (n + 1) + 1 := by omega
  rw [endOfChain, hfollow, hleft, followFrom]
  simp [hget, hmem]

/-- A chain that leads on when the limit is reached is reported as too long, wherever it leads. -/
lemma endOfChain_of_leadsOn (h : map.LeadsOn v checker.limits.maxVariableChain) :
    checker.endOfChain v map = .error (.longVariableChain (checker.store.varName v)
      checker.limits.maxVariableChain) := by
  obtain ⟨hapart, w, next, hw, hget⟩ := h
  obtain ⟨visited, -, hfollow⟩ := follow_eq (Nat.le_refl _) hw hapart
  rw [endOfChain, hfollow, Nat.sub_self, followFrom]
  simp [hget]

/-- **How a chain of variables ends.**  There is a type at its end exactly if the chain comes to it
within the limit, past different variables; there is none exactly if it so comes to a variable that
is not bound; a cycle is reported exactly if it so comes back to a variable that it has passed; and
in all other cases the chain is too long.  It is never too long if the limit is no smaller than the
number of bindings. -/
theorem endOfChain_iff (checker : Checker) (v : TypeVarId) (map : Bindings) :
    let limit := checker.limits.maxVariableChain
    let result := checker.endOfChain v map
    (∀ ty, result = .ok (some ty) ↔ ty.var? = none ∧ map.Arrives v limit (some ty)) ∧
      (result = .ok none ↔ map.Arrives v limit none) ∧
      (result = .error (.cyclicVariable (checker.store.varName v)) ↔ map.Recurs v limit) ∧
      (result = .error (.longVariableChain (checker.store.varName v) limit) ↔
        (∀ ty, ty.var? = none → ¬ map.Arrives v limit (some ty)) ∧ ¬ map.Arrives v limit none ∧
          ¬ map.Recurs v limit) ∧
      (map.size ≤ limit →
        result ≠ .error (.longVariableChain (checker.store.varName v) limit)) := by
  intro limit result
  have htype : ∀ ty, ty.var? = none → map.Arrives v limit (some ty) → result = .ok (some ty) :=
    fun _ => endOfChain_of_type
  have hunbound : map.Arrives v limit none → result = .ok none := endOfChain_of_unbound
  have hrecurs : map.Recurs v limit → result = .error (.cyclicVariable (checker.store.varName v)) :=
    endOfChain_of_recurs
  have hlong : map.LeadsOn v limit →
      result = .error (.longVariableChain (checker.store.varName v) limit) := endOfChain_of_leadsOn
  -- The ways exclude one another because their answers differ.
  have hways := map.recurs_or_ends_or_leadsOn v limit
  refine ⟨by grind, by grind, by grind, by grind, fun hsize h => ?_⟩
  have hon : map.LeadsOn v limit := by grind
  exact absurd hon.lt_size (Nat.not_lt.mpr hsize)

/-- A circle of two variables is noticed with the second step, if that may be made. -/
example :
    let map := Bindings.ofList [(⟨0⟩, .var ⟨1⟩), (⟨1⟩, .var ⟨0⟩)]
    let within (hops : Nat) : Checker := { store := .core, limits := { maxVariableChain := hops } }
    (within 2).endOfChain ⟨0⟩ map = .error (.cyclicVariable "T") ∧
      (within 1).endOfChain ⟨0⟩ map = .error (.longVariableChain "T" 1) :=
  ⟨rfl, rfl⟩

end Checker

end JavaGenerics
