import JavaGenerics.Proofs.Assignability
import JavaGenerics.Proofs.HierarchySearch
import JavaGenerics.Proofs.ImpliedBounds

/-!
# Normal lists of classes

Whether one class implies another is a question of the hierarchy alone, and a hierarchy that
declares nothing in a circle and nothing above `Object` is an order.  So for bounds that are classes
the places in the list no longer matter.

* `Store.Hierarchical` — such a hierarchy; `Store.Below` is transitive and antisymmetric in it.
* `Checker.exists_survivors` — the sieving gets to an end if every question it may ask is answered.
* `Checker.Sieved.mem_iff_minimal`, `Checker.normalizeBounds_classes` — **what is left of a list of
  classes are the minimal ones**, in whatever order and however often they are listed.
-/

namespace JavaGenerics

open Relation

namespace Store

/-- A hierarchy that is an order, with `Object` on top. -/
structure Hierarchical (store : Store) : Prop where
  nominal : store.Nominal
  acyclic : ∀ id, ¬ TransGen store.Extends id id
  top : ∀ decl, store.class? store.wellKnown.object = some decl → decl.edges.supertypes = []

namespace Hierarchical

variable {store : Store} {a b c : ClassId}

/-- No edge leads on from `Object`. -/
lemma not_above_object (h : store.Hierarchical) :
    ¬ TransGen store.Extends store.wellKnown.object a := by
  intro hpath
  obtain ⟨next, ⟨decl, hdecl, edge, hedge, -⟩, -⟩ := TransGen.head'_iff.mp hpath
  rw [h.top decl hdecl] at hedge
  exact absurd hedge (by simp)

lemma below_trans (h : store.Hierarchical) (hab : store.Below a b) (hbc : store.Below b c) :
    store.Below a c := by
  rcases hbc with rfl | rfl | hbc
  · exact hab
  · exact .inr (.inl rfl)
  · rcases hab with rfl | rfl | hab
    · exact .inr (.inr hbc)
    · exact absurd hbc h.not_above_object
    · exact .inr (.inr (hab.trans hbc))

lemma below_antisymm (h : store.Hierarchical) (hab : store.Below a b) (hba : store.Below b a) :
    a = b := by
  rcases hab with rfl | rfl | hab
  · rfl
  · rcases hba with heq | rfl | hba
    · exact heq.symm
    · rfl
    · exact absurd hba h.not_above_object
  · rcases hba with rfl | rfl | hba
    · rfl
    · exact absurd hab h.not_above_object
    · exact absurd (hab.trans hba) (h.acyclic a)

end Hierarchical

/-- The hierarchy of a regular store is an order. -/
lemma Regular.hierarchical {store : Store} (hreg : store.Regular) : store.Hierarchical where
  nominal := hreg.toWalkable.kinded.nominal
  acyclic := hreg.acyclic
  top decl hdecl := by
    obtain ⟨hsuperclass, hinterfaces⟩ := hreg.object_top decl hdecl
    simp [Edges.supertypes, ClassDecl.edges, hsuperclass, hinterfaces]

end Store

namespace Checker

variable {checker : Checker} {a b : ClassId}

/-! ## Classes as bounds -/

lemma implies_or_spares_cls (hnom : checker.store.Nominal) (ha : checker.store.Reference a)
    (hb : checker.store.Reference b) :
    checker.Implies (.cls a) (.cls b) ∧ checker.store.Below a b ∨
      checker.Spares (.cls a) (.cls b) ∧ ¬ checker.store.Below a b := by
  obtain ⟨answer, hanswer, hiff⟩ := answer_classConverts hnom ha.1 ha.2 hb.2
  rw [Implies, Spares, answer_assignable_cls, hanswer]
  cases answer <;> simpa using hiff

lemma implies_cls_iff (hnom : checker.store.Nominal) (ha : checker.store.Reference a)
    (hb : checker.store.Reference b) :
    checker.Implies (.cls a) (.cls b) ↔ checker.store.Below a b := by
  rcases implies_or_spares_cls hnom ha hb with ⟨himplies, hbelow⟩ | ⟨hspares, hbelow⟩
  · exact iff_of_true himplies hbelow
  · exact iff_of_false hspares.not_implies hbelow

/-! ## Sieving with answers -/

lemma exists_impliedByEarlier {bound : Ty} {others : List Ty}
    (h : ∀ other ∈ others, checker.Implies other bound ∨ checker.Spares other bound) :
    ∃ implied, checker.answer (checker.impliedByEarlier bound others) = .ok implied := by
  induction others with
  | nil => exact ⟨false, by simp [impliedByEarlier]⟩
  | cons other rest ih =>
      obtain ⟨implied, hrest⟩ := ih fun next hnext => h next (List.mem_cons_of_mem _ hnext)
      rcases h other (by simp) with hother | hother <;>
        simp [impliedByEarlier, show checker.answer _ = _ from hother, hrest]

lemma exists_impliedByLater {bound : Ty} {others : List Ty}
    (h : ∀ other ∈ others, checker.Implies other bound ∨ checker.Spares other bound)
    (h' : ∀ other ∈ others, checker.Implies bound other ∨ checker.Spares bound other) :
    ∃ implied, checker.answer (checker.impliedByLater bound others) = .ok implied := by
  induction others with
  | nil => exact ⟨false, by simp [impliedByLater]⟩
  | cons other rest ih =>
      obtain ⟨implied, hrest⟩ := ih (fun next hnext => h next (List.mem_cons_of_mem _ hnext))
        fun next hnext => h' next (List.mem_cons_of_mem _ hnext)
      rcases h other (by simp) with hforth | hforth <;>
        rcases h' other (by simp) with hback | hback <;>
          simp [impliedByLater, show checker.answer _ = _ from hforth,
            show checker.answer _ = _ from hback, hrest]

/-- **The sieving ends with an answer** if of any two of the bounds one implies the other or does
not. -/
lemma exists_survivors {earlier bounds : List Ty}
    (h : ∀ a ∈ earlier ++ bounds, ∀ b ∈ earlier ++ bounds,
      checker.Implies a b ∨ checker.Spares a b) :
    ∃ kept, checker.answer (checker.survivors earlier bounds) = .ok kept := by
  induction bounds generalizing earlier with
  | nil => exact ⟨[], by simp [survivors]⟩
  | cons bound later ih =>
      obtain ⟨kept, hkept⟩ := @ih (earlier ++ [bound]) (by simpa using h)
      obtain ⟨before, hbefore⟩ := @exists_impliedByEarlier checker bound earlier
        fun other hother => h other (by simp [hother]) bound (by simp)
      obtain ⟨after, hafter⟩ := @exists_impliedByLater checker bound later
        (fun other hother => h other (by simp [hother]) bound (by simp))
        fun other hother => h bound (by simp) other (by simp [hother])
      cases before with
      | true =>
          exact ⟨kept, by simp only [survivors, answer_bind, hbefore, ok_bind, if_true, pure_bind,
            hkept, answer_pure]⟩
      | false =>
          exact ⟨if after then kept else bound :: kept, by simp only [survivors, answer_bind,
            hbefore, ok_bind, Bool.false_eq_true, if_false, hafter, hkept, answer_pure]⟩

/-! ## What is left of a list of classes -/

variable {ids : List ClassId}

lemma mem_distinct_classes {ty : Ty} :
    ty ∈ distinct (ids.map .cls) ↔ ∃ id ∈ ids, ty = .cls id := by
  constructor
  · intro h
    obtain ⟨id, hid, rfl⟩ := List.mem_map.mp ((distinctAfter_sublist [] _).subset h)
    exact ⟨id, hid, rfl⟩
  · rintro ⟨id, hid, rfl⟩
    obtain ⟨first, hfirst, hsame⟩ := exists_mem_distinct (List.mem_map_of_mem hid)
    rwa [Ty.beq_cls_iff.mp hsame] at hfirst

section Hierarchical

variable (hier : checker.store.Hierarchical) (hids : ∀ id ∈ ids, checker.store.Reference id)

include hier hids

lemma exists_survivors_classes :
    ∃ out, checker.answer (checker.survivors [] (distinct (ids.map .cls))) = .ok out := by
  refine exists_survivors fun s hs t ht => ?_
  obtain ⟨a, ha, rfl⟩ := mem_distinct_classes.mp hs
  obtain ⟨b, hb, rfl⟩ := mem_distinct_classes.mp ht
  exact (implies_or_spares_cls hier.nominal (hids a ha) (hids b hb)).imp And.left And.left

lemma transAt_classes {c : Ty} (hc : c ∈ distinct (ids.map .cls)) :
    checker.TransAt (distinct (ids.map .cls)) c := by
  intro s hs t ht hsc hct
  obtain ⟨m, hm, rfl⟩ := mem_distinct_classes.mp hc
  obtain ⟨a, ha, rfl⟩ := mem_distinct_classes.mp hs
  obtain ⟨b, hb, rfl⟩ := mem_distinct_classes.mp ht
  have ham := (implies_cls_iff hier.nominal (hids a ha) (hids m hm)).mp hsc
  have hmb := (implies_cls_iff hier.nominal (hids m hm) (hids b hb)).mp hct
  exact (implies_cls_iff hier.nominal (hids a ha) (hids b hb)).mpr (hier.below_trans ham hmb)

/-- What is left has something below each class of the list. -/
lemma Sieved.exists_below {out : List Ty}
    (hsieved : checker.Sieved [] (distinct (ids.map .cls)) out) {id : ClassId} (hid : id ∈ ids) :
    ∃ low ∈ ids, .cls low ∈ out ∧ checker.store.Below low id := by
  obtain ⟨s, hs, hbelow⟩ := hsieved.covers (List.Subset.refl _) hsieved.sublist.subset
    (fun c hc _ => transAt_classes hier hids hc) (.cls id) (mem_distinct_classes.mpr ⟨id, hid, rfl⟩)
  obtain ⟨low, hlow, rfl⟩ := mem_distinct_classes.mp (hsieved.sublist.subset hs)
  refine ⟨low, hlow, hs, ?_⟩
  rcases hbelow with heq | himplies
  · exact .inl (Ty.cls.inj heq)
  · exact (implies_cls_iff hier.nominal (hids low hlow) (hids id hid)).mp himplies

/-- **What is left are the minimal classes**, because no two of those left are related and each
class of the list has one of them below it. -/
lemma Sieved.mem_iff_minimal {out : List Ty}
    (hsieved : checker.Sieved [] (distinct (ids.map .cls)) out) (ty : Ty) :
    ty ∈ out ↔ ∃ id ∈ ids, ty = .cls id ∧
      ∀ other ∈ ids, other ≠ id → checker.Spares (.cls other) (.cls id) := by
  constructor
  · intro hty
    obtain ⟨id, hid, rfl⟩ := mem_distinct_classes.mp (hsieved.sublist.subset hty)
    refine ⟨id, hid, rfl, fun other hother hne => ?_⟩
    refine (implies_or_spares_cls hier.nominal (hids other hother) (hids id hid)).elim
      (fun ⟨_, habove⟩ => ?_) And.left
    -- Something that is left is below the other class, and so below this one: it is this one.
    obtain ⟨low, hlow, hmem, hbelow⟩ := hsieved.exists_below hier hids hother
    have hlowest := (implies_cls_iff hier.nominal (hids low hlow) (hids id hid)).mpr
      (hier.below_trans hbelow habove)
    have hself : low = id := by
      by_contra hdiff
      exact (hsieved.pairwise.forall hmem hty fun heq => hdiff (Ty.cls.inj heq)).1.not_implies
        hlowest
    exact absurd (hier.below_antisymm habove (hself ▸ hbelow)) hne
  · rintro ⟨id, hid, rfl, hminimal⟩
    obtain ⟨low, hlow, hmem, hbelow⟩ := hsieved.exists_below hier hids hid
    by_cases heq : low = id
    · exact heq ▸ hmem
    · exact absurd ((implies_cls_iff hier.nominal (hids low hlow) (hids id hid)).mpr hbelow)
        (hminimal low hlow heq).not_implies

end Hierarchical

/-- **Normalizing a list of classes does not depend on its order.**  In a hierarchy that is an
order, every list of classes that are no primitives has a normal form: those to which no other class
of the list is assignable.  One of them is assignable to each class of the list; they are what
sieving leaves, and never what stands in for nothing being left; and any other list of the same
classes has the same ones. -/
theorem normalizeBounds_classes (checker : Checker) (hier : checker.store.Hierarchical)
    (ids : List ClassId) (hne : ids ≠ []) (hids : ∀ id ∈ ids, checker.store.Reference id) :
    ∃ out, checker.answer (checker.normalizeBounds (ids.map .cls)) = .ok out ∧
      (∀ ty, ty ∈ out ↔ ∃ id ∈ ids, ty = .cls id ∧ ∀ other ∈ ids, other ≠ id →
        checker.answer (checker.assignable (some (.cls other)) (.cls id) none) = .ok false) ∧
      (∀ id ∈ ids, ∃ s ∈ out,
        checker.answer (checker.assignable (some s) (.cls id) none) = .ok true) ∧
      (checker.answer (checker.survivors [] (distinct (ids.map .cls))) = .ok out ∧ out ≠ []) ∧
      ∀ ids' : List ClassId, (∀ id, id ∈ ids' ↔ id ∈ ids) →
        ∃ out', checker.answer (checker.normalizeBounds (ids'.map .cls)) = .ok out' ∧
          ∀ ty, ty ∈ out' ↔ ty ∈ out := by
  obtain ⟨out, hout⟩ := exists_survivors_classes hier hids
  have hminimal := (sieved_of_survivors hout).mem_iff_minimal hier hids
  have hcovers : ∀ id ∈ ids, ∃ s ∈ out, checker.Implies s (.cls id) := by
    intro id hid
    obtain ⟨low, hlow, hmem, hbelow⟩ := (sieved_of_survivors hout).exists_below hier hids hid
    exact ⟨.cls low, hmem, (implies_cls_iff hier.nominal (hids low hlow) (hids id hid)).mpr hbelow⟩
  obtain ⟨id, hid⟩ := List.exists_mem_of_ne_nil ids hne
  obtain ⟨s, hs, -⟩ := hcovers id hid
  have hfull := List.ne_nil_of_mem hs
  refine ⟨out, answer_normalizeBounds hout hfull, hminimal, hcovers, ⟨hout, hfull⟩,
    fun ids' hsame => ?_⟩
  have hids' : ∀ id ∈ ids', checker.store.Reference id := fun id hid => hids id ((hsame id).mp hid)
  obtain ⟨out', hout'⟩ := exists_survivors_classes hier hids'
  have hmem (ty : Ty) : ty ∈ out' ↔ ty ∈ out := by
    rw [(sieved_of_survivors hout').mem_iff_minimal hier hids', hminimal]
    simp only [hsame, Spares]
  exact ⟨out', answer_normalizeBounds hout' (List.ne_nil_of_mem ((hmem s).mpr hs)), hmem⟩

/-- Of `Collection`, `Integer` and `ArrayList` the last two are left, whichever comes first. -/
theorem arrayListAndInteger_minimal :
    let checker : Checker := { store := .collections }
    let integer := checker.store.wellKnown.integer
    checker.store.Hierarchical ∧
      ∃ out out', checker.answer (checker.normalizeBounds
          ([⟨24⟩, integer, ⟨29⟩].map .cls)) = .ok out ∧
        checker.answer (checker.normalizeBounds
          ([⟨29⟩, ⟨24⟩, integer, ⟨29⟩].map .cls)) = .ok out' ∧
        .cls integer ∈ out ∧ .cls ⟨29⟩ ∈ out ∧ .cls ⟨24⟩ ∉ out ∧ ∀ ty, ty ∈ out' ↔ ty ∈ out := by
  intro checker integer
  have hier : checker.store.Hierarchical := Store.collections_regular.hierarchical
  have hids : ∀ id ∈ [⟨24⟩, integer, ⟨29⟩], checker.store.Reference id := by
    simp only [List.forall_mem_cons]
    exact ⟨⟨⟨_, rfl⟩, rfl⟩, ⟨⟨_, rfl⟩, rfl⟩, ⟨⟨_, rfl⟩, rfl⟩, by simp⟩
  obtain ⟨out, hout, hminimal, -, -, hagain⟩ :=
    normalizeBounds_classes checker hier [⟨24⟩, integer, ⟨29⟩] (by simp) hids
  obtain ⟨out', hout', hsame⟩ := hagain [⟨29⟩, ⟨24⟩, integer, ⟨29⟩] (by simp)
  refine ⟨hier, out, out', hout, hout', ?_, ?_, fun hmem => ?_, hsame⟩
  · exact (hminimal _).mpr ⟨integer, by simp, rfl, by decide +kernel⟩
  · exact (hminimal _).mpr ⟨⟨29⟩, by simp, rfl, by decide +kernel⟩
  · obtain ⟨id, -, heq, hspared⟩ := (hminimal _).mp hmem
    obtain rfl := Ty.cls.inj heq
    have himplies : checker.Implies (.cls ⟨29⟩) (.cls ⟨24⟩) := by decide +kernel
    exact Spares.not_implies (hspared ⟨29⟩ (by simp) (by decide)) himplies

end Checker

end JavaGenerics
