import Mathlib.Tactic.Common
import JavaGenerics.Signature.Reader

/-!
# What readers read

A reader is a program.  What one wants to know of it is a relation: which results it can have at the
front of which texts, and what it leaves.

* `Reader.Reads` — a reader has a meaning: **it succeeds exactly where the relation holds**.
  Positions do not matter, for no reader looks at them.
* `Reads.bind` — readers in sequence compose their meanings.
* `reads_identifier`, `reads_accept`, … — the meanings of the single readers.
* `repeatUntil_eq` — repetition goes by rounds: since every item takes a character (`Takes`), the
  bound on their number is never met.
* `Reads.repeatUntil` — and so it has the meaning `Until`, which knows nothing of that bound.
* `Reads.whileNext`, `Reads.repeatUntil_accept`, `Reads.repeatUntil_atEnd` — repetition of an item
  that reads a written form reads the concatenation.
-/

namespace JavaGenerics

namespace Reader

variable {α β : Type}

/-- A relation between the text before, a result, and the text after. -/
abbrev Meaning (α : Type) := List Char → α → List Char → Prop

/-- The reader succeeds exactly as its meaning says. -/
def Reads (r : Reader α) (F : Meaning α) : Prop :=
  ∀ (cursor : Cursor) (a : α) (rest : List Char),
    (∃ offset, r cursor = .ok (a, ⟨rest, offset⟩)) ↔ F cursor.rest a rest

lemma Reads.congr {r : Reader α} {F G : Meaning α} (h : Reads r F)
    (hiff : ∀ cs a rest, F cs a rest ↔ G cs a rest) : Reads r G :=
  fun cursor a rest => (h cursor a rest).trans (hiff cursor.rest a rest)

/-! ## Sequences -/

lemma bind_apply (r : Reader α) (f : α → Reader β) (cursor : Cursor) :
    (r >>= f) cursor =
      match r cursor with
      | .ok (a, after) => f a after
      | .error fault => .error fault := by
  show (r cursor >>= fun (a, after) => f a after) = _
  cases r cursor <;> rfl

lemma bind_eq_ok_iff {r : Reader α} {f : α → Reader β} {cursor after : Cursor} {b : β} :
    (r >>= f) cursor = .ok (b, after) ↔
      ∃ a mid, r cursor = .ok (a, mid) ∧ f a mid = .ok (b, after) := by
  rw [bind_apply]
  cases r cursor with
  | error fault =>
      constructor
      · exact fun h => nomatch h
      · exact fun ⟨_, _, h, _⟩ => nomatch h
  | ok result =>
      obtain ⟨a, mid⟩ := result
      constructor
      · exact fun h => ⟨a, mid, rfl, h⟩
      · rintro ⟨a', mid', h, hf⟩
        cases h
        exact hf

lemma reads_pure (a : α) : Reads (pure a) fun cs b rest => b = a ∧ rest = cs := by
  intro cursor b rest
  constructor
  · rintro ⟨offset, h⟩
    cases h
    exact ⟨rfl, rfl⟩
  · rintro ⟨rfl, rfl⟩
    exact ⟨cursor.offset, rfl⟩

lemma reads_fail (problem : Problem) : Reads (fail problem : Reader α) fun _ _ _ => False := by
  intro cursor a rest
  constructor
  · rintro ⟨offset, h⟩
    cases h
  · exact False.elim

/-- **Readers in sequence compose their meanings.** -/
theorem Reads.bind {r : Reader α} {F : Meaning α} {f : α → Reader β} {G : α → Meaning β}
    (hr : Reads r F) (hf : ∀ a, Reads (f a) (G a)) :
    Reads (r >>= f) fun cs b rest => ∃ a mid, F cs a mid ∧ G a mid b rest := by
  intro cursor b rest
  constructor
  · rintro ⟨offset, h⟩
    obtain ⟨a, mid, hrun, hnext⟩ := bind_eq_ok_iff.mp h
    exact ⟨a, mid.rest, (hr cursor a mid.rest).mp ⟨mid.offset, hrun⟩,
      (hf a mid b rest).mp ⟨offset, hnext⟩⟩
  · rintro ⟨a, mid, hF, hG⟩
    obtain ⟨offset, hrun⟩ := (hr cursor a mid).mpr hF
    obtain ⟨offset', hnext⟩ := (hf a ⟨mid, offset⟩ b rest).mpr hG
    exact ⟨offset', bind_eq_ok_iff.mpr ⟨a, ⟨mid, offset⟩, hrun, hnext⟩⟩

lemma Reads.map {r : Reader α} {F : Meaning α} (g : α → β) (hr : Reads r F) :
    Reads (g <$> r) fun cs b rest => ∃ a, F cs a rest ∧ b = g a := by
  refine (hr.bind fun a => reads_pure (g a)).congr fun cs b rest => ?_
  constructor
  · rintro ⟨a, mid, hF, rfl, rfl⟩
    exact ⟨a, hF, rfl⟩
  · rintro ⟨a, hF, rfl⟩
    exact ⟨a, rest, hF, rfl, rfl⟩

lemma Reads.ite {c : Prop} [Decidable c] {r s : Reader α} {F G : Meaning α} (hr : Reads r F)
    (hs : Reads s G) :
    Reads (if c then r else s) fun cs a rest => if c then F cs a rest else G cs a rest := by
  by_cases hc : c <;> simpa [hc] using by assumption

/-- A list that may not be empty. -/
lemma Reads.nonempty {r : Reader (List α)} {F : Meaning (List α)} (hr : Reads r F)
    (problem : Problem) :
    Reads (do
      let found ← r
      if found.isEmpty then fail problem
      return found) fun cs found rest => F cs found rest ∧ found ≠ [] := by
  refine (hr.bind fun found => ((reads_fail problem).bind fun _ => reads_pure found).ite
    (reads_pure found)).congr fun cs found rest => ?_
  constructor
  · rintro ⟨_, _, hF, h⟩
    split at h
    · obtain ⟨_, _, hfalse, -⟩ := h
      exact hfalse.elim
    · rename_i hsome
      obtain ⟨rfl, rfl⟩ := h
      exact ⟨hF, by simpa using hsome⟩
  · rintro ⟨hF, hsome⟩
    refine ⟨found, rest, hF, ?_⟩
    rw [if_neg (by simpa using hsome)]
    exact ⟨rfl, rfl⟩

/-! ## Single readers -/

lemma reads_peek : Reads peek fun cs next rest => next = cs.head? ∧ rest = cs := by
  intro cursor next rest
  constructor
  · rintro ⟨offset, h⟩
    cases h
    exact ⟨rfl, rfl⟩
  · rintro ⟨rfl, rfl⟩
    exact ⟨cursor.offset, rfl⟩

/-- A reader that goes by the next character. -/
lemma Reads.byNext {f : Option Char → Reader α} {G : Option Char → Meaning α}
    (hf : ∀ next, Reads (f next) (G next)) :
    Reads (peek >>= f) fun cs a rest => G cs.head? cs a rest := by
  refine (reads_peek.bind hf).congr fun cs a rest => ?_
  constructor
  · rintro ⟨_, _, ⟨rfl, rfl⟩, hG⟩
    exact hG
  · exact fun hG => ⟨_, _, ⟨rfl, rfl⟩, hG⟩

lemma reads_atEnd : Reads atEnd fun cs b rest => b = cs.isEmpty ∧ rest = cs := by
  intro cursor b rest
  constructor
  · rintro ⟨offset, h⟩
    cases h
    exact ⟨rfl, rfl⟩
  · rintro ⟨rfl, rfl⟩
    exact ⟨cursor.offset, rfl⟩

lemma reads_skip (count : Nat) : Reads (skip count) fun cs _ rest => rest = cs.drop count := by
  intro cursor b rest
  constructor
  · rintro ⟨offset, h⟩
    cases h
    rfl
  · rintro rfl
    exact ⟨_, rfl⟩

lemma length_takeWhile_beq_iff {c : Char} {cs : List Char} {n : Nat} :
    (cs.takeWhile (· == c)).length = n ↔
      ∃ tail, cs = List.replicate n c ++ tail ∧ tail.head? ≠ some c := by
  induction cs generalizing n with
  | nil =>
      cases n with
      | zero => simp
      | succ n => simp [List.replicate_succ]
  | cons d cs ih =>
      by_cases hd : d = c
      · subst hd
        cases n with
        | zero => simp
        | succ n => simp [List.replicate_succ, ih]
      · cases n with
        | zero => simp [hd]
        | succ n => simp [List.replicate_succ, hd]

/-- The marks that come next are counted, and left where they are. -/
lemma reads_countNext (c : Char) : Reads (countNext c) fun cs n rest =>
    (∃ tail, cs = List.replicate n c ++ tail ∧ tail.head? ≠ some c) ∧ rest = cs := by
  intro cursor n rest
  simp only [← length_takeWhile_beq_iff]
  constructor
  · rintro ⟨offset, h⟩
    cases h
    exact ⟨rfl, rfl⟩
  · rintro ⟨rfl, rfl⟩
    exact ⟨cursor.offset, rfl⟩

/-- Either the character is taken, or another one comes next. -/
abbrev Accepts (c : Char) : Meaning Bool :=
  fun cs b rest => b = true ∧ cs = c :: rest ∨ b = false ∧ cs.head? ≠ some c ∧ rest = cs

lemma reads_accept (c : Char) : Reads (accept c) (Accepts c) := by
  intro cursor b rest
  obtain ⟨cs, offset⟩ := cursor
  by_cases hhead : cs.head? = some c
  · obtain ⟨tail, rfl⟩ : ∃ tail, cs = c :: tail := List.head?_eq_some_iff.mp hhead
    constructor
    · rintro ⟨offset', h⟩
      simp only [accept, List.head?_cons, if_true, Except.ok.injEq, Prod.mk.injEq, Cursor.skip,
        List.drop_one, List.tail_cons, Cursor.mk.injEq] at h
      exact Or.inl ⟨h.1.symm, by rw [h.2.1]⟩
    · rintro (⟨rfl, h⟩ | ⟨-, h, -⟩)
      · rw [List.cons.injEq] at h
        exact ⟨_, by simp [accept, Cursor.skip, h.2]; rfl⟩
      · exact absurd rfl h
  · constructor
    · rintro ⟨offset', h⟩
      simp only [accept, hhead, if_false, Except.ok.injEq, Prod.mk.injEq, Cursor.mk.injEq] at h
      exact Or.inr ⟨h.1.symm, hhead, h.2.1.symm⟩
    · rintro (⟨-, rfl⟩ | ⟨rfl, -, rfl⟩)
      · exact absurd rfl hhead
      · exact ⟨offset, by simp [accept, hhead]⟩

lemma reads_expect (c : Char) (problem : Problem) :
    Reads (expect c problem) fun cs _ rest => cs = c :: rest := by
  refine ((reads_accept c).bind fun b => (reads_pure ()).ite (reads_fail problem)).congr ?_
  intro cs u rest
  constructor
  · rintro ⟨b, mid, ⟨rfl, rfl⟩ | ⟨rfl, -, -⟩, h⟩
    · simp only [if_true] at h
      rw [h.2]
    · simp at h
  · rintro rfl
    exact ⟨true, rest, Or.inl ⟨rfl, rfl⟩, by simp⟩

/-! ## Identifiers -/

/-- A name that is not empty and contains no character that delimits something. -/
def IsIdentifier (name : String) : Prop :=
  name ≠ "" ∧ ∀ c ∈ name.toList, isDelimiter c = false

/-- A text before which an identifier ends: the empty one, or one that starts with a delimiter. -/
def Ends (rest : List Char) : Prop :=
  ∀ c, rest.head? = some c → isDelimiter c = true

lemma ends_cons {c : Char} (h : isDelimiter c = true) (rest : List Char) : Ends (c :: rest) := by
  intro d hd
  rw [List.head?_cons, Option.some.injEq] at hd
  exact hd ▸ h

lemma IsIdentifier.toList_ne_nil {name : String} (h : IsIdentifier name) : name.toList ≠ [] := by
  simpa using h.1

lemma IsIdentifier.head?_ne {name : String} (h : IsIdentifier name) {c : Char}
    (hc : isDelimiter c = true) (rest : List Char) : (name.toList ++ rest).head? ≠ some c := by
  obtain ⟨d, tail, hname⟩ := List.exists_cons_of_ne_nil h.toList_ne_nil
  have hd := h.2 d (by simp [hname])
  rw [hname, List.cons_append, List.head?_cons, ne_eq, Option.some.injEq]
  rintro rfl
  simp [hd] at hc

lemma takeWhile_eq_of_ends {name rest : List Char} (hname : ∀ c ∈ name, isDelimiter c = false)
    (hrest : Ends rest) : (name ++ rest).takeWhile (fun c => !isDelimiter c) = name := by
  rw [List.takeWhile_append_of_pos fun c hc => by simp [hname c hc]]
  cases rest with
  | nil => simp
  | cons c rest => simp [hrest c rfl]

/-- **An identifier is read as far as it goes.** -/
theorem reads_identifier : Reads identifier fun cs name rest =>
    cs = name.toList ++ rest ∧ IsIdentifier name ∧ Ends rest := by
  intro cursor name rest
  obtain ⟨cs, offset⟩ := cursor
  simp only [identifier, List.isEmpty_iff]
  constructor
  · rintro ⟨offset', h⟩
    split at h
    · cases h
    · rename_i hne
      simp only [Except.ok.injEq, Prod.mk.injEq, Cursor.skip, Cursor.mk.injEq] at h
      obtain ⟨rfl, rfl, -⟩ := h
      have hsplit := List.takeWhile_append_dropWhile (p := fun c => !isDelimiter c) (l := cs)
      have hdrop : cs.drop (cs.takeWhile fun c => !isDelimiter c).length =
          cs.dropWhile fun c => !isDelimiter c := by
        have h := congrArg (List.drop (cs.takeWhile fun c => !isDelimiter c).length) hsplit
        rw [List.drop_left] at h
        exact h.symm
      rw [hdrop, String.toList_ofList]
      refine ⟨hsplit.symm, ⟨fun hempty => hne ?_, fun c hc => ?_⟩, fun c hc => ?_⟩
      · simpa using congrArg String.toList hempty
      · rw [String.toList_ofList] at hc
        simpa using List.all_eq_true.mp List.all_takeWhile c hc
      · have hhead := List.head?_dropWhile_not (fun c => !isDelimiter c) cs
        rw [hc] at hhead
        simpa using hhead
  · rintro ⟨rfl, ⟨hne, hname⟩, hrest⟩
    have htake := takeWhile_eq_of_ends hname hrest
    have hnonempty : name.toList ≠ [] := by simpa using hne
    refine ⟨offset + utf8Length ((name.toList ++ rest).take name.toList.length), ?_⟩
    simp only [htake, hnonempty, if_false, Cursor.skip, String.ofList_toList, List.drop_left]

/-! ## Rounds -/

/-- A reader that leaves no more than there was. -/
def Shortens (r : Reader α) : Prop :=
  ∀ (cursor : Cursor) (a : α) (after : Cursor),
    r cursor = .ok (a, after) → after.rest.length ≤ cursor.rest.length

/-- A reader that takes a character whenever it succeeds. -/
def Takes (r : Reader α) : Prop :=
  ∀ (cursor : Cursor) (a : α) (after : Cursor),
    r cursor = .ok (a, after) → after.rest.length < cursor.rest.length

lemma Reads.shortens {r : Reader α} {F : Meaning α} (hr : Reads r F)
    (hF : ∀ cs a rest, F cs a rest → rest.length ≤ cs.length) : Shortens r :=
  fun cursor a after hrun => hF _ _ _ ((hr cursor a after.rest).mp ⟨after.offset, hrun⟩)

lemma Reads.takes {r : Reader α} {F : Meaning α} (hr : Reads r F)
    (hF : ∀ cs a rest, F cs a rest → rest.length < cs.length) : Takes r :=
  fun cursor a after hrun => hF _ _ _ ((hr cursor a after.rest).mp ⟨after.offset, hrun⟩)

lemma shortens_accept (c : Char) : Shortens (accept c) := by
  refine (reads_accept c).shortens ?_
  rintro cs b rest (⟨-, rfl⟩ | ⟨-, -, rfl⟩)
  · exact Nat.le_succ _
  · exact Nat.le_refl _

lemma shortens_atEnd : Shortens atEnd := by
  refine reads_atEnd.shortens ?_
  rintro cs b rest ⟨-, rfl⟩
  exact Nat.le_refl _

/-- One round of a repetition. -/
def round (stop : Reader Bool) (item : Reader α) (again : Reader (List α)) : Reader (List α) := do
  if ← stop then pure []
  else
    let head ← item
    let tail ← again
    pure (head :: tail)

section Rounds

variable {stop : Reader Bool} {item : Reader α} {cursor : Cursor} (hstop : Shortens stop)
  (hitem : Takes item)

include hstop hitem

/-- What a round reads again lies further on, where less is left. -/
lemma round_congr {again again' : Reader (List α)}
    (h : ∀ later : Cursor, later.rest.length < cursor.rest.length → again later = again' later) :
    round stop item again cursor = round stop item again' cursor := by
  simp only [round, bind_apply]
  cases hrun : stop cursor with
  | error fault => rfl
  | ok result =>
      obtain ⟨b, mid⟩ := result
      have hmid := hstop _ _ _ hrun
      cases b with
      | true => rfl
      | false =>
          simp only [Bool.false_eq_true, if_false, bind_apply]
          cases hrun' : item mid with
          | error fault => rfl
          | ok result =>
              obtain ⟨a, later⟩ := result
              have hlater := hitem _ _ _ hrun'
              simp only [h later (by omega)]

/-- A bound that is large enough leaves room for one more round. -/
lemma untilWithin_eq_round {bound : List Char} (hbound : cursor.rest.length ≤ bound.length) :
    untilWithin stop item bound cursor =
      round stop item (untilWithin stop item bound.tail) cursor := by
  cases bound with
  | cons c bound => rfl
  | nil =>
      -- Nothing is left, so that no item can be read.
      have hnone : untilWithin stop item [] = round stop item (pure []) := rfl
      rw [hnone]
      exact round_congr hstop hitem fun later hlater =>
        absurd (Nat.lt_of_lt_of_le hlater hbound) (Nat.not_lt_zero _)

/-- All bounds that are large enough are as good. -/
lemma untilWithin_congr {bound bound' : List Char} (hbound : cursor.rest.length ≤ bound.length)
    (hbound' : cursor.rest.length ≤ bound'.length) :
    untilWithin stop item bound cursor = untilWithin stop item bound' cursor := by
  induction hlength : cursor.rest.length using Nat.strongRecOn
    generalizing bound bound' cursor with
  | ind length ih =>
      rw [untilWithin_eq_round hstop hitem hbound, untilWithin_eq_round hstop hitem hbound']
      refine round_congr hstop hitem fun later hlater => ih _ (hlength ▸ hlater) ?_ ?_ rfl
      all_goals
        rw [List.length_tail]
        omega

/-- **Repetition goes by rounds**: the bound on them is never met. -/
theorem repeatUntil_eq (cursor : Cursor) :
    Reader.repeatUntil stop item cursor =
      round stop item (Reader.repeatUntil stop item) cursor := by
  rw [Reader.repeatUntil, untilWithin_eq_round hstop hitem (Nat.le_refl _)]
  refine round_congr hstop hitem fun later hlater => ?_
  refine untilWithin_congr hstop hitem ?_ (Nat.le_refl _)
  rw [List.length_tail]
  omega

end Rounds

/-! ## Repetition -/

/-- Repetition of an item, with a stop before each round. -/
inductive Until (S : Meaning Bool) (I : Meaning α) : Meaning (List α)
  | stop {cs rest : List Char} (hstop : S cs true rest) : Until S I cs [] rest
  | item {cs mid mid' rest : List Char} {a : α} {as : List α} (hgo : S cs false mid)
      (hitem : I mid a mid') (hrest : Until S I mid' as rest) : Until S I cs (a :: as) rest

section Repetition

variable {stop : Reader Bool} {item : Reader α} {S : Meaning Bool} {I : Meaning α}
  (hstop : Reads stop S) (hitem : Reads item I)
  (hshort : ∀ cs b mid, S cs b mid → mid.length ≤ cs.length)
  (htakes : ∀ cs a mid, I cs a mid → mid.length < cs.length)

include hstop hitem hshort htakes

/-- What is read is a series of rounds. -/
lemma until_of_repeatUntil {cursor after : Cursor} {as : List α}
    (h : repeatUntil stop item cursor = .ok (as, after)) : Until S I cursor.rest as after.rest := by
  induction hlength : cursor.rest.length using Nat.strongRecOn generalizing cursor as with
  | ind length ih =>
      rw [repeatUntil_eq (hstop.shortens hshort) (hitem.takes htakes)] at h
      obtain ⟨b, mid, hrun, h⟩ := bind_eq_ok_iff.mp h
      have hS := (hstop cursor b mid.rest).mp ⟨mid.offset, hrun⟩
      cases b with
      | true =>
          cases h
          exact .stop hS
      | false =>
          obtain ⟨a, mid', hrun', h⟩ := bind_eq_ok_iff.mp h
          have hI := (hitem mid a mid'.rest).mp ⟨mid'.offset, hrun'⟩
          obtain ⟨tail, after', hloop, h⟩ := bind_eq_ok_iff.mp h
          cases h
          have hmid := hshort _ _ _ hS
          have hmid' := htakes _ _ _ hI
          exact .item hS hI (ih _ (by omega) hloop rfl)

/-- A series of rounds is read. -/
lemma exists_repeatUntil {cs rest : List Char} {as : List α} (h : Until S I cs as rest)
    (offset : Nat) : ∃ offset', repeatUntil stop item ⟨cs, offset⟩ = .ok (as, ⟨rest, offset'⟩) := by
  have hround := repeatUntil_eq (hstop.shortens hshort) (hitem.takes htakes)
  induction h generalizing offset with
  | @stop cs rest hS =>
      obtain ⟨offset', hrun⟩ := (hstop ⟨cs, offset⟩ true rest).mpr hS
      exact ⟨offset', (hround _).trans (bind_eq_ok_iff.mpr ⟨true, _, hrun, rfl⟩)⟩
  | @item cs mid mid' rest a as hS hI _ ih =>
      obtain ⟨offset₁, hrun⟩ := (hstop ⟨cs, offset⟩ false mid).mpr hS
      obtain ⟨offset₂, hrun'⟩ := (hitem ⟨mid, offset₁⟩ a mid').mpr hI
      obtain ⟨offset₃, hloop⟩ := ih offset₂
      exact ⟨offset₃, (hround _).trans (bind_eq_ok_iff.mpr ⟨false, _, hrun, bind_eq_ok_iff.mpr
        ⟨a, _, hrun', bind_eq_ok_iff.mpr ⟨as, _, hloop, rfl⟩⟩⟩)⟩

/-- **Repetition reads what its rounds read**, however many there are. -/
theorem Reads.repeatUntil : Reads (repeatUntil stop item) (Until S I) := by
  intro cursor as rest
  constructor
  · rintro ⟨offset, h⟩
    exact until_of_repeatUntil hstop hitem hshort htakes h
  · intro h
    exact exists_repeatUntil hstop hitem hshort htakes h cursor.offset

end Repetition

/-! ## Repetition of written forms -/

/-- The meaning of a reader for things that are written down in one way: the text is what `a` is
written as, `a` is among the valid things, and what follows does not change that. -/
def Writes (text : α → List Char) (valid : α → Prop) (follows : α → List Char → Prop) :
    Meaning α :=
  fun cs a rest => cs = text a ++ rest ∧ valid a ∧ follows a rest

variable {text : α → List Char} {valid : α → Prop} {follows : α → List Char → Prop}
  {item : Reader α}

lemma Writes.length_lt (hne : ∀ a, valid a → text a ≠ []) {cs rest : List Char} {a : α}
    (h : Writes text valid follows cs a rest) : rest.length < cs.length := by
  obtain ⟨rfl, hvalid, -⟩ := h
  have := List.length_pos_iff.mpr (hne a hvalid)
  simp only [List.length_append]
  omega

lemma Reads.takes_of_writes (hitem : Reads item (Writes text valid follows))
    (hne : ∀ a, valid a → text a ≠ []) : Takes item :=
  hitem.takes fun _ _ _ => Writes.length_lt hne

/-- Items that each follow a mark are read as long as the mark comes next. -/
theorem Reads.whileNext (mark : Char) (hitem : Reads item (Writes text valid follows))
    (hne : ∀ a, valid a → text a ≠ []) (hmark : ∀ a rest, valid a → follows a (mark :: rest)) :
    Reads (Reader.whileNext mark item) fun cs as rest =>
      cs = as.flatMap (fun a => mark :: text a) ++ rest ∧ (∀ a ∈ as, valid a) ∧
        rest.head? ≠ some mark ∧ ∀ a, as.getLast? = some a → follows a rest := by
  have hstop : Reads (do return !(← accept mark)) _ :=
    (reads_accept mark).bind fun b => reads_pure (!b)
  refine (Reads.repeatUntil hstop hitem ?_ fun cs a mid => Writes.length_lt hne).congr ?_
  · rintro cs b mid ⟨b', mid', ⟨-, rfl⟩ | ⟨-, -, rfl⟩, -, rfl⟩
    · simp
    · simp
  intro cs as rest
  constructor
  · intro h
    induction h with
    | stop hS =>
        obtain ⟨b, mid, ⟨rfl, -⟩ | ⟨rfl, hhead, rfl⟩, hb, rfl⟩ := hS
        · simp at hb
        · exact ⟨rfl, by simp, hhead, by simp⟩
    | @item cs mid mid' rest a as hgo hI hrest ih =>
        obtain ⟨b, next, ⟨rfl, rfl⟩ | ⟨rfl, -, -⟩, hb, rfl⟩ := hgo
        · obtain ⟨rfl, hvalid, hfollows⟩ := hI
          obtain ⟨rfl, hall, hhead, hlast⟩ := ih
          refine ⟨by simp, List.forall_mem_cons.mpr ⟨hvalid, hall⟩, hhead, fun last hget => ?_⟩
          cases as with
          | nil =>
              simp only [List.getLast?_singleton, Option.some.injEq] at hget
              exact hget ▸ hfollows
          | cons b bs => exact hlast last (by simpa using hget)
        · simp at hb
  · rintro ⟨rfl, hall, hhead, hlast⟩
    induction as with
    | nil => exact .stop ⟨false, rest, Or.inr ⟨rfl, hhead, rfl⟩, rfl, rfl⟩
    | cons a as ih =>
        obtain ⟨hvalid, hall⟩ := List.forall_mem_cons.mp hall
        have hrest := ih hall fun last hget => hlast last (by
          cases as with
          | nil => simp at hget
          | cons b bs => simpa using hget)
        refine .item ⟨true, _, Or.inl ⟨rfl, by simp⟩, rfl, rfl⟩ ⟨rfl, hvalid, ?_⟩ hrest
        cases as with
        | nil => exact hlast a (by simp)
        | cons b bs => exact hmark a _ hvalid

/-- Rounds of written forms are the concatenation of these, up to where the stop says that they are
at an end. -/
lemma until_writes_iff {S : Meaning Bool} (atStop : List Char → List Char → Prop)
    (hS : ∀ cs b mid, S cs b mid ↔
      b = true ∧ atStop cs mid ∨ b = false ∧ (∀ r, ¬ atStop cs r) ∧ mid = cs)
    (hgo : ∀ a tail r, valid a → ¬ atStop (text a ++ tail) r)
    (hend : ∀ a cs r, valid a → atStop cs r → follows a cs)
    (hnext : ∀ a b tail, valid a → valid b → follows a (text b ++ tail))
    (cs : List Char) (as : List α) (rest : List Char) :
    Until S (Writes text valid follows) cs as rest ↔
      ∃ tail, cs = as.flatMap text ++ tail ∧ (∀ a ∈ as, valid a) ∧ atStop tail rest := by
  constructor
  · intro h
    induction h with
    | stop h =>
        rcases (hS _ _ _).mp h with ⟨-, h⟩ | ⟨hb, -⟩
        · exact ⟨_, rfl, by simp, h⟩
        · simp at hb
    | item hgo' hI hrest ih =>
        rcases (hS _ _ _).mp hgo' with ⟨hb, -⟩ | ⟨-, -, rfl⟩
        · simp at hb
        · obtain ⟨rfl, hvalid, -⟩ := hI
          obtain ⟨tail, rfl, hall, hstop'⟩ := ih
          exact ⟨tail, by simp, List.forall_mem_cons.mpr ⟨hvalid, hall⟩, hstop'⟩
  · rintro ⟨tail, rfl, hall, hstop'⟩
    induction as with
    | nil => exact .stop ((hS _ _ _).mpr (Or.inl ⟨rfl, hstop'⟩))
    | cons a as ih =>
        obtain ⟨hvalid, hall⟩ := List.forall_mem_cons.mp hall
        rw [List.flatMap_cons, List.append_assoc]
        refine .item ((hS _ _ _).mpr (Or.inr ⟨rfl, fun r => hgo a _ r hvalid, rfl⟩))
          ⟨rfl, hvalid, ?_⟩ (ih hall)
        cases as with
        | nil => exact hend a _ rest hvalid hstop'
        | cons b bs =>
            rw [List.flatMap_cons, List.append_assoc]
            exact hnext a b _ hvalid (hall b (by simp))

lemma Until.imp {S : Meaning Bool} {I J : Meaning α} {cs rest : List Char} {as : List α}
    (h : Until S I cs as rest)
    (himp : ∀ {cs a mid as rest}, I cs a mid → Until S J mid as rest → J cs a mid) :
    Until S J cs as rest := by
  induction h with
  | stop hstop => exact .stop hstop
  | item hgo hitem _ ih => exact .item hgo (himp hitem ih) ih

/-- A closing character is still to come, so the text is not at its end. -/
lemma Until.ne_nil {close : Char} {I : Meaning α} {cs rest : List Char} {as : List α}
    (htakes : ∀ cs a mid, I cs a mid → mid.length < cs.length)
    (h : Until (Accepts close) I cs as rest) : cs ≠ [] := by
  cases h with
  | stop h =>
      rcases h with ⟨-, rfl⟩ | ⟨hb, -⟩
      · exact List.cons_ne_nil _ _
      · simp at hb
  | item hgo hitem _ =>
      rcases hgo with ⟨hb, -⟩ | ⟨-, -, rfl⟩
      · simp at hb
      · rintro rfl
        simpa using htakes _ _ _ hitem

/-- Items are read up to a closing character.  What an item means at the end of the text does not
matter, for the closing character is missing there. -/
theorem Reads.repeatUntil_accept (close : Char) {I : Meaning α} (hitem : Reads item I)
    (htakes : ∀ cs a mid, I cs a mid → mid.length < cs.length)
    (hI : ∀ cs a c mid, I cs a (c :: mid) ↔ Writes text valid follows cs a (c :: mid))
    (hne : ∀ a, valid a → text a ≠ []) (hgo : ∀ a, valid a → (text a).head? ≠ some close)
    (hend : ∀ a rest, valid a → follows a (close :: rest))
    (hnext : ∀ a b tail, valid a → valid b → follows a (text b ++ tail)) :
    Reads (Reader.repeatUntil (accept close) item) fun cs as rest =>
      cs = as.flatMap text ++ close :: rest ∧ ∀ a ∈ as, valid a := by
  have hshort : ∀ cs b mid, Accepts close cs b mid → mid.length ≤ cs.length := by
    rintro cs b mid (⟨-, rfl⟩ | ⟨-, -, rfl⟩)
    · simp
    · exact Nat.le_refl _
  have hwritten : ∀ cs as rest, Until (Accepts close) I cs as rest ↔
      Until (Accepts close) (Writes text valid follows) cs as rest := by
    intro cs as rest
    constructor
    · refine fun h => h.imp fun {cs a mid as rest} hI' hrest => ?_
      obtain ⟨c, mid, rfl⟩ := List.exists_cons_of_ne_nil
        (hrest.ne_nil fun cs a mid => Writes.length_lt hne)
      exact (hI cs a c mid).mp hI'
    · refine fun h => h.imp fun {cs a mid as rest} hI' hrest => ?_
      obtain ⟨c, mid, rfl⟩ := List.exists_cons_of_ne_nil (hrest.ne_nil htakes)
      exact (hI cs a c mid).mpr hI'
  refine (Reads.repeatUntil (reads_accept close) hitem hshort htakes).congr fun cs as rest =>
    (hwritten cs as rest).trans <| (until_writes_iff (fun cs r => cs = close :: r) ?_
      ?_ ?_ hnext cs as rest).trans ?_
  · intro cs b mid
    have hhead : cs.head? ≠ some close ↔ ∀ r, ¬ cs = close :: r := by
      rw [ne_eq, List.head?_eq_some_iff, not_exists]
    rw [Accepts, hhead]
  · intro a tail r hvalid h
    refine hgo a hvalid ?_
    obtain ⟨c, cs, hcons⟩ := List.exists_cons_of_ne_nil (hne a hvalid)
    rw [hcons, List.cons_append, List.cons.injEq] at h
    rw [hcons, List.head?_cons, h.1]
  · rintro a cs r hvalid rfl
    exact hend a r hvalid
  · constructor
    · rintro ⟨tail, rfl, hall, rfl⟩
      exact ⟨rfl, hall⟩
    · rintro ⟨rfl, hall⟩
      exact ⟨_, rfl, hall, rfl⟩

/-- Items are read up to the end of the text. -/
theorem Reads.repeatUntil_atEnd (hitem : Reads item (Writes text valid follows))
    (hne : ∀ a, valid a → text a ≠ []) (hend : ∀ a, valid a → follows a [])
    (hnext : ∀ a b tail, valid a → valid b → follows a (text b ++ tail)) :
    Reads (Reader.repeatUntil atEnd item) fun cs as rest =>
      cs = as.flatMap text ∧ (∀ a ∈ as, valid a) ∧ rest = [] := by
  have hshort : ∀ (cs : List Char) (b : Bool) (mid : List Char),
      b = cs.isEmpty ∧ mid = cs → mid.length ≤ cs.length := by
    rintro cs b mid ⟨-, rfl⟩
    exact Nat.le_refl _
  refine (Reads.repeatUntil reads_atEnd hitem hshort fun cs a mid => Writes.length_lt hne).congr
    fun cs as rest => (until_writes_iff (fun cs r => cs = [] ∧ r = []) ?_
      ?_ ?_ hnext cs as rest).trans ?_
  · intro cs b mid
    cases cs <;> cases b <;> simp
  · rintro a tail r hvalid ⟨h, -⟩
    exact hne a hvalid (List.append_eq_nil_iff.mp h).1
  · rintro a cs r hvalid ⟨rfl, -⟩
    exact hend a hvalid
  · constructor
    · rintro ⟨tail, rfl, hall, rfl, rfl⟩
      exact ⟨by simp, hall, rfl⟩
    · rintro ⟨rfl, hall, rfl⟩
      exact ⟨[], by simp, hall, rfl, rfl⟩

/-! ## Whole texts -/

/-- A whole text is accepted if the reader succeeds at its front, for a reader that accepts whole
texts only is one that does not succeed where something is left. -/
lemma Reads.read_eq_ok_iff {r : Reader α} {F : Meaning α} (hr : Reads r F) (text : String) (a : α) :
    r.read text = .ok a ↔ ∃ rest, F text.toList a rest := by
  have hrun := hr { rest := text.toList } a
  unfold read
  split
  · rename_i result after hok
    constructor
    · rintro ⟨⟩
      exact ⟨after.rest, (hrun after.rest).mp ⟨after.offset, hok⟩⟩
    · rintro ⟨rest, hF⟩
      obtain ⟨offset, hok'⟩ := (hrun rest).mpr hF
      rw [hok] at hok'
      cases hok'
      rfl
  · rename_i fault herror
    constructor
    · rintro ⟨⟩
    · rintro ⟨rest, hF⟩
      obtain ⟨offset, hok⟩ := (hrun rest).mpr hF
      rw [herror] at hok
      cases hok

end Reader

end JavaGenerics
