import JavaGenerics.Proofs.ReaderMeaning
import JavaGenerics.Proofs.ByteReaders

/-!
# Readers by position do what readers of characters do

A reader of characters cannot land inside one, for it holds the characters that are left.  A reader
by position can, and it does not if it does the same: `Cursor.In` relates the places of the one to
positions of the other.

* `Simulates` — from a position on, **two readers give the same answer**.  The position moves
  forward and stays at the start of a character, as many lists are open after as before, and a
  problem is reported at a position of that kind.
* `Simulates.bind`, `Simulates.inList`, … — it is enough to know that of the parts.
* `Simulates.onward` — a recursion simulates if each step does, given that what it reads further on
  does.
-/

namespace JavaGenerics

variable {α β : Type}

/-! ## Places in a text -/

/-- The place is one in the text: what lies behind and what follows make up the text. -/
def Cursor.In (text : String) (cursor : Cursor) : Prop :=
  ∃ before, text = before ++ String.ofList cursor.rest ∧ cursor.offset = before.utf8ByteSize

namespace Cursor.In

variable {text : String} {cursor after : Cursor}

lemma start (text : String) : ({ rest := text.toList } : Cursor).In text :=
  ⟨"", by simp, rfl⟩

lemma skip (h : cursor.In text) (count : Nat) : (cursor.skip count).In text := by
  obtain ⟨before, rfl, hoffset⟩ := h
  refine ⟨before ++ String.ofList (cursor.rest.take count), ?_, ?_⟩
  · rw [Cursor.skip, String.append_assoc, ← String.ofList_append, List.take_append_drop]
  · rw [Cursor.skip, String.utf8ByteSize_append, hoffset, utf8Length_eq]

lemma isValid (h : cursor.In text) : String.Pos.Raw.IsValid text ⟨cursor.offset⟩ := by
  obtain ⟨before, rfl, hoffset⟩ := h
  exact hoffset ▸ isValid_append before _

lemma textFrom? (h : cursor.In text) :
    textFrom? text cursor.offset = some (String.ofList cursor.rest) := by
  obtain ⟨before, rfl, hoffset⟩ := h
  exact hoffset ▸ textFrom?_append before _

lemma size_eq (h : cursor.In text) :
    text.utf8ByteSize = cursor.offset + utf8Length cursor.rest := by
  obtain ⟨before, rfl, hoffset⟩ := h
  rw [String.utf8ByteSize_append, hoffset, utf8Length_eq]

/-- The fewer characters are left, the more bytes lie behind. -/
lemma offset_lt (h : cursor.In text) (hafter : after.In text)
    (hshort : after.rest.length < cursor.rest.length) : cursor.offset < after.offset := by
  have hsize := h.size_eq
  have hsize' := hafter.size_eq
  obtain ⟨before, htext, -⟩ := h
  obtain ⟨before', htext', -⟩ := hafter
  have hlist : before'.toList ++ after.rest = before.toList ++ cursor.rest := by
    simpa using congrArg String.toList (htext'.symm.trans htext)
  obtain ⟨taken, htaken⟩ : after.rest <:+ cursor.rest :=
    List.suffix_of_suffix_length_le ⟨before'.toList, hlist⟩ ⟨before.toList, rfl⟩ hshort.le
  have hlength := length_le_utf8Length taken
  rw [← htaken, List.length_append] at hshort
  rw [← htaken, utf8Length_append] at hsize
  omega

end Cursor.In

/-! ## Simulation -/

/-- The same answer of a reader of characters and a reader by position, from a position on. -/
inductive SameAnswer (text : String) (opened start : Nat) :
    Except Fault (α × Cursor) → Except Halt (α × Mark) → Prop
  | read (a : α) {after : Cursor} (hin : after.In text) (hle : start ≤ after.offset) :
      SameAnswer text opened start (.ok (a, after)) (.ok (a, ⟨after.offset, opened⟩))
  | failed (problem : Problem) {place : Cursor} (hin : place.In text) :
      SameAnswer text opened start (.error ⟨place.offset, problem⟩)
        (.error (.fault ⟨place.offset, problem⟩))

lemma SameAnswer.mono {text : String} {opened start later : Nat}
    {answer : Except Fault (α × Cursor)} {answer' : Except Halt (α × Mark)}
    (h : SameAnswer text opened later answer answer') (hle : start ≤ later) :
    SameAnswer text opened start answer answer' := by
  cases h with
  | read a hin hlater => exact .read a hin (hle.trans hlater)
  | failed problem hin => exact .failed problem hin

/-- At one place, with so many lists open, the two readers give the same answer. -/
def SimulatesAt (text : String) (opened : Nat) (cursor : Cursor) (bytes : ByteReader α)
    (reader : Reader α) : Prop :=
  SameAnswer text opened cursor.offset (reader cursor) (bytes text ⟨cursor.offset, opened⟩)

/-- From a position on, with so many lists open, the two readers give the same answers. -/
def Simulates (text : String) (start opened : Nat) (bytes : ByteReader α)
    (reader : Reader α) : Prop :=
  ∀ cursor : Cursor, cursor.In text → start ≤ cursor.offset →
    SimulatesAt text opened cursor bytes reader

variable {text : String} {start opened : Nat} {cursor : Cursor}

lemma ByteReader.bind_apply (bytes : ByteReader α) (next : α → ByteReader β) (mark : Mark) :
    (bytes >>= next) text mark =
      match bytes text mark with
      | .ok (a, after) => next a text after
      | .error halt => .error halt := by
  show (bytes text mark >>= fun (a, after) => next a text after) = _
  cases bytes text mark <;> rfl

/-! ### Sequences -/

lemma SimulatesAt.bind {bytes : ByteReader α} {reader : Reader α} {next : α → ByteReader β}
    {next' : α → Reader β} (h : SimulatesAt text opened cursor bytes reader)
    (hnext : ∀ a after, reader cursor = .ok (a, after) → after.In text →
      cursor.offset ≤ after.offset → SimulatesAt text opened after (next a) (next' a)) :
    SimulatesAt text opened cursor (bytes >>= next) (reader >>= next') := by
  rw [SimulatesAt] at h ⊢
  rw [Reader.bind_apply, ByteReader.bind_apply]
  generalize hrun : reader cursor = answer at h
  generalize bytes text ⟨cursor.offset, opened⟩ = answer' at h
  cases h with
  | read a hin hle => exact (hnext a _ hrun hin hle).mono hle
  | failed problem hin => exact .failed problem hin

lemma simulatesAt_fail (hin : cursor.In text) (problem : Problem) :
    SimulatesAt text opened cursor (ByteReader.fail problem : ByteReader α)
      (Reader.fail problem) :=
  .failed problem hin

namespace Simulates

lemma mono {bytes : ByteReader α} {reader : Reader α} {later : Nat}
    (h : Simulates text start opened bytes reader) (hle : start ≤ later) :
    Simulates text later opened bytes reader :=
  fun cursor hin hlater => h cursor hin (hle.trans hlater)

lemma pure (a : α) : Simulates text start opened (Pure.pure a) (Pure.pure a) :=
  fun _ hin _ => .read a hin (Nat.le_refl _)

lemma fail (problem : Problem) :
    Simulates text start opened (ByteReader.fail problem : ByteReader α) (Reader.fail problem) :=
  fun _ hin _ => simulatesAt_fail hin problem

lemma bind {bytes : ByteReader α} {reader : Reader α} {next : α → ByteReader β}
    {next' : α → Reader β} (h : Simulates text start opened bytes reader)
    (hnext : ∀ a, Simulates text start opened (next a) (next' a)) :
    Simulates text start opened (bytes >>= next) (reader >>= next') :=
  fun cursor hin hle => (h cursor hin hle).bind fun a after _ hafter hlater =>
    hnext a after hafter (hle.trans hlater)

/-- After a reader that takes a character, the next one starts further on. -/
lemma bind_taking {bytes : ByteReader α} {reader : Reader α} {next : α → ByteReader β}
    {next' : α → Reader β} (h : Simulates text start opened bytes reader)
    (htakes : Reader.Takes reader)
    (hnext : ∀ a, Simulates text (start + 1) opened (next a) (next' a)) :
    Simulates text start opened (bytes >>= next) (reader >>= next') :=
  fun cursor hin hle => (h cursor hin hle).bind fun a after hrun hafter _ =>
    hnext a after hafter (by have := hin.offset_lt hafter (htakes _ _ _ hrun); omega)

lemma map {bytes : ByteReader α} {reader : Reader α} (f : α → β)
    (h : Simulates text start opened bytes reader) :
    Simulates text start opened (f <$> bytes) (f <$> reader) :=
  h.bind fun a => pure (f a)

/-- A list that may not be empty. -/
lemma nonempty {bytes : ByteReader (List α)} {reader : Reader (List α)}
    (h : Simulates text start opened bytes reader) (problem : Problem) :
    Simulates text start opened
      (do
        let found ← bytes
        if found.isEmpty then ByteReader.fail problem
        return found)
      (do
        let found ← reader
        if found.isEmpty then Reader.fail problem
        return found) := by
  refine h.bind fun found => ?_
  cases found with
  | nil => exact (fail problem).bind fun _ => pure []
  | cons a found => exact pure (a :: found)

end Simulates

/-! ### Positions -/

lemma ByteReader.rest_eq (hin : cursor.In text) :
    ByteReader.rest text ⟨cursor.offset, opened⟩ =
      .ok (String.ofList cursor.rest, ⟨cursor.offset, opened⟩) := by
  rw [ByteReader.rest, hin.textFrom?]

/-- From place to place, any distance can be gone forward. -/
lemma ByteReader.advance_eq {after : Cursor} {bytes : Nat} (hafter : after.In text)
    (hbytes : cursor.offset + bytes = after.offset) :
    ByteReader.advance bytes text ⟨cursor.offset, opened⟩ = .ok ((), ⟨after.offset, opened⟩) := by
  rw [ByteReader.advance, hbytes, ByteReader.moveTo, if_neg (by simp [← hbytes]),
    if_pos hafter.isValid]

/-- Characters of one byte can be passed over by number. -/
lemma SimulatesAt.skip_bind {c : Char} {count : Nat} {tail : List Char} (hin : cursor.In text)
    (hc : c.utf8Size = 1) (hrest : cursor.rest = List.replicate count c ++ tail)
    {next : Unit → ByteReader α} {next' : Unit → Reader α}
    (hnext : ∀ after : Cursor, after.In text → after.rest = tail →
      after.offset = cursor.offset + count → SimulatesAt text opened after (next ()) (next' ())) :
    SimulatesAt text opened cursor (ByteReader.advance count >>= next)
      (Reader.skip count >>= next') := by
  have hlength : utf8Length (List.replicate count c) = count := by
    clear hrest hnext
    induction count with
    | zero => rfl
    | succ count ih => rw [List.replicate_succ, utf8Length, ih, hc, Nat.add_comm]
  have hafter := hin.skip count
  have hoffset : (cursor.skip count).offset = cursor.offset + count := by
    rw [Cursor.skip, hrest, List.take_left' List.length_replicate, hlength]
  have htail : (cursor.skip count).rest = tail := by
    rw [Cursor.skip, hrest, List.drop_left' List.length_replicate]
  rw [SimulatesAt, ByteReader.bind_apply, ByteReader.advance_eq hafter hoffset.symm]
  exact (hnext _ hafter htail hoffset).mono (by omega)

/-! ### Characters -/

/-- To look at the next character changes nothing. -/
lemma SimulatesAt.of_peek (hin : cursor.In text) {next : Option Char → ByteReader α}
    {reader : Reader α} (h : SimulatesAt text opened cursor (next cursor.rest.head?) reader) :
    SimulatesAt text opened cursor (ByteReader.peek >>= next) reader := by
  rw [SimulatesAt, ByteReader.bind_apply, ByteReader.peek, ByteReader.bind_apply,
    ByteReader.rest_eq hin]
  simp only [String.toList_ofList]
  exact h

/-- Two readers that go by the next character. -/
lemma SimulatesAt.byNext (hin : cursor.In text) {next : Option Char → ByteReader α}
    {next' : Option Char → Reader α}
    (h : SimulatesAt text opened cursor (next cursor.rest.head?) (next' cursor.rest.head?)) :
    SimulatesAt text opened cursor (ByteReader.peek >>= next) (Reader.peek >>= next') :=
  .of_peek hin h

lemma Simulates.byNext {next : Option Char → ByteReader α} {next' : Option Char → Reader α}
    (h : ∀ c?, Simulates text start opened (next c?) (next' c?)) :
    Simulates text start opened (ByteReader.peek >>= next) (Reader.peek >>= next') :=
  fun cursor hin hle => .byNext hin (h _ cursor hin hle)

lemma simulates_accept (c : Char) :
    Simulates text start opened (ByteReader.accept c) (Reader.accept c) := by
  intro cursor hin _
  refine .of_peek hin ?_
  rw [SimulatesAt, Reader.accept]
  by_cases hhead : cursor.rest.head? = some c
  · obtain ⟨tail, htail⟩ := List.head?_eq_some_iff.mp hhead
    have hafter := hin.skip 1
    rw [if_pos hhead, if_pos hhead, ByteReader.bind_apply,
      ByteReader.advance_eq hafter (by simp [Cursor.skip, htail, utf8Length])]
    exact .read true hafter (Nat.le_add_right _ _)
  · rw [if_neg hhead, if_neg hhead]
    exact .read false hin (Nat.le_refl _)

lemma simulates_expect (c : Char) (problem : Problem) :
    Simulates text start opened (ByteReader.expect c problem) (Reader.expect c problem) := by
  refine (simulates_accept c).bind fun found => ?_
  cases found with
  | true => exact .pure ()
  | false => exact .fail problem

lemma simulates_atEnd : Simulates text start opened ByteReader.atEnd Reader.atEnd := by
  intro cursor hin _
  have hempty : decide (text.utf8ByteSize ≤ cursor.offset) = cursor.rest.isEmpty := by
    rw [hin.size_eq]
    cases cursor.rest with
    | nil => simp [utf8Length]
    | cons c rest =>
        have := c.utf8Size_pos
        rw [utf8Length, List.isEmpty_cons, decide_eq_false_iff_not]
        omega
  rw [SimulatesAt, ByteReader.atEnd, hempty]
  exact .read _ hin (Nat.le_refl _)

/-! ### Runs of characters -/

lemma simulates_identifier :
    Simulates text start opened ByteReader.identifier Reader.identifier := by
  intro cursor hin _
  have hbytes : bytesBefore Reader.isDelimiter (String.ofList cursor.rest) =
      utf8Length (cursor.rest.takeWhile fun c => !Reader.isDelimiter c) := by
    rw [bytesBefore_eq, String.toList_ofList]
  rw [SimulatesAt, ByteReader.identifier, ByteReader.bind_apply, ByteReader.rest_eq hin]
  simp only [Reader.identifier, hbytes]
  generalize hname : (cursor.rest.takeWhile fun c => !Reader.isDelimiter c) = name
  by_cases hempty : name = []
  · subst hempty
    exact .failed .expectedIdentifier hin
  · have hsome : utf8Length name ≠ 0 := by
      have := length_le_utf8Length name
      have := List.length_pos_iff.mpr hempty
      omega
    obtain ⟨tail, htail⟩ : name <+: cursor.rest := hname ▸ List.takeWhile_prefix _
    have hafter := hin.skip name.length
    have hoffset : cursor.offset + utf8Length name = (cursor.skip name.length).offset := by
      rw [Cursor.skip, ← htail, List.take_left]
    have hcut : textUpTo? (String.ofList cursor.rest) (utf8Length name) =
        some (String.ofList name) := by
      rw [← htail, String.ofList_append, utf8Length_eq, textUpTo?_append]
    rw [if_neg hsome, if_neg (by simpa using hempty), ByteReader.bind_apply,
      ByteReader.advance_eq hafter hoffset, ByteReader.upTo, hcut]
    exact .read _ hafter (by omega)

lemma simulatesAt_countNext {c : Char} (hin : cursor.In text) (hc : c.utf8Size = 1) :
    SimulatesAt text opened cursor (ByteReader.countNext c) (Reader.countNext c) := by
  rw [SimulatesAt, ByteReader.countNext, ByteReader.bind_apply, ByteReader.rest_eq hin,
    Reader.countNext]
  simp only [leadingBytes_eq hc, String.toList_ofList]
  exact .read _ hin (Nat.le_refl _)

/-! ### Lists -/

/-- To ask how many lists are open changes nothing. -/
lemma SimulatesAt.of_opened {next : Nat → ByteReader α} {reader : Reader α}
    (h : SimulatesAt text opened cursor (next opened) reader) :
    SimulatesAt text opened cursor (ByteReader.opened >>= next) reader :=
  h

namespace Simulates

/-- What is read with one more list open leaves that list to be closed. -/
lemma inList {body : ByteReader α} {reader : Reader α}
    (h : Simulates text start (opened + 1) body reader) :
    Simulates text start opened (ByteReader.inList body) reader := by
  intro cursor hin hle
  have hbody := h cursor hin hle
  rw [SimulatesAt] at hbody ⊢
  rw [ByteReader.inList, ByteReader.bind_apply, ByteReader.enter]
  simp only [ByteReader.bind_apply]
  generalize reader cursor = answer at hbody ⊢
  generalize body text ⟨cursor.offset, opened + 1⟩ = answer' at hbody ⊢
  cases hbody with
  | read a hafter hlater => exact .read a hafter hlater
  | failed problem hplace => exact .failed problem hplace

/-! ### Recursion -/

/-- **A recursion simulates a family of readers if each step does**, given that what it reads again,
further on, simulates them. -/
theorem onward (family : Nat → Reader α → Prop) {step : ByteReader α → ByteReader α}
    (hstep : ∀ place, start ≤ place → ∀ again,
      (∀ opened reader, family opened reader → Simulates text (place + 1) opened again reader) →
      ∀ opened reader, family opened reader → Simulates text place opened (step again) reader)
    {reader : Reader α} (hreader : family opened reader) :
    Simulates text start opened (ByteReader.onward step) reader := by
  intro cursor hin hstart
  induction hleft : text.utf8ByteSize - cursor.offset using Nat.strongRecOn
    generalizing opened reader cursor with
  | ind left ih =>
      rw [SimulatesAt, ByteReader.onward]
      refine hstep cursor.offset hstart _ ?_ opened reader hreader cursor hin (Nat.le_refl _)
      intro opened' reader' hreader' later hlater hle
      have hlt : cursor.offset < later.offset := hle
      have hend : later.offset ≤ text.utf8ByteSize := hlater.size_eq ▸ Nat.le_add_right _ _
      have hagain := ih _ (by omega) hreader' later hlater (by omega) rfl
      rw [SimulatesAt] at hagain ⊢
      simpa only [hlt, hend, if_true] using hagain

/-- Rounds read what rounds read, if each item takes a character. -/
lemma repeatUntil {stop : ByteReader Bool} {stop' : Reader Bool} {item : ByteReader α}
    {item' : Reader α} (hstop : Simulates text start opened stop stop')
    (hitem : Simulates text start opened item item') (hshort : Reader.Shortens stop')
    (htakes : Reader.Takes item') :
    Simulates text start opened (ByteReader.repeatUntil stop item)
      (Reader.repeatUntil stop' item') := by
  refine onward (fun opened' reader =>
    opened' = opened ∧ reader = Reader.repeatUntil stop' item') ?_ ⟨rfl, rfl⟩
  rintro place hplace again hagain _ _ ⟨rfl, rfl⟩ cursor hin hle
  rw [SimulatesAt, Reader.repeatUntil_eq hshort htakes]
  refine ((hstop.mono hplace).bind fun stopped => ?_) cursor hin hle
  cases stopped with
  | true => exact .pure []
  | false =>
      exact (hitem.mono hplace).bind_taking htakes fun head =>
        (hagain _ _ ⟨rfl, rfl⟩).bind fun tail => .pure (head :: tail)

/-- Rounds until a character comes. -/
lemma repeatUntil_accept (c : Char) {item : ByteReader α} {item' : Reader α}
    (hitem : Simulates text start opened item item') (htakes : Reader.Takes item') :
    Simulates text start opened (ByteReader.repeatUntil (ByteReader.accept c) item)
      (Reader.repeatUntil (Reader.accept c) item') :=
  repeatUntil (simulates_accept c) hitem (Reader.shortens_accept c) htakes

/-- Rounds for as long as a character comes. -/
lemma whileNext (c : Char) {item : ByteReader α} {item' : Reader α}
    (hitem : Simulates text start opened item item') (htakes : Reader.Takes item') :
    Simulates text start opened (ByteReader.whileNext c item) (Reader.whileNext c item') := by
  refine repeatUntil ((simulates_accept c).bind fun found => pure (!found)) hitem ?_ htakes
  intro cursor b after h
  obtain ⟨found, mid, hfound, h⟩ := Reader.bind_eq_ok_iff.mp h
  cases h
  exact Reader.shortens_accept c _ _ _ hfound

end Simulates

end JavaGenerics
