import JavaGenerics.Proofs.SignatureDeclarations
import JavaGenerics.Proofs.ReaderSimulation

/-!
# The readers of signatures stay inside their text

Read by position, a signature is cut in many places: after a letter, after a counted run of
brackets, before a delimiter.  Whatever the text, no cut goes wrong, for every reader by position
simulates its reader of characters.

* `Signature.takes_identifier`, … — that items take a character is read off what they read.
* `SimulatesReferences` — what a nested reader of references is for, with all numbers of open lists.
* `simulates_arguments`, `simulates_classTypeWith`, … — one lemma for each reader of the grammar.
* `Signature.parse_stays_inside` — **the readers by position never slip, return what the parsers
  return, and report problems at positions where a character starts or the text ends.**
-/

namespace JavaGenerics

open Reader

/-! ## Items -/

namespace Signature

variable {lists : Nat}

lemma takes_identifier : Takes identifier := by
  have hname : Reads identifier (Writes String.toList IsIdentifier fun _ => Ends) :=
    reads_identifier
  exact hname.takes_of_writes fun name h => h.toList_ne_nil

lemma takes_segment : Takes (do
    let name ← identifier
    return SegmentSig.mk name (← arguments lists)) :=
  (reads_segment (reads_arguments lists)).takes_of_writes fun _ h => segment_text_ne_nil h

lemma takes_argument : Takes (argumentWith (referenceWith (arguments lists))) :=
  (reads_argumentWith (reads_referenceWith (reads_arguments lists))).takes_of_writes
    fun _ h => argument_text_ne_nil h

lemma takes_classType : Takes classType :=
  reads_classType.takes_of_writes fun sig _ => classType_text_ne_nil sig

lemma takes_reference : Takes reference :=
  reads_reference.takes_of_writes fun ty _ => text_ne_nil ty

lemma takes_anyType : Takes anyType :=
  reads_anyType.takes_of_writes fun ty _ => text_ne_nil ty

lemma takes_thrown : Takes thrown :=
  reads_thrown.takes_of_writes fun ty _ => text_ne_nil ty

lemma takes_typeParam : Takes typeParam :=
  reads_typeParam.takes fun _ _ _ h => h.length_lt

lemma namedTypeWith_apply (args : Reader (List ArgSig)) (cursor : Cursor) :
    namedTypeWith args cursor =
      (match cursor.rest.head? with
      | some 'L' => do return TypeSig.cls (← classTypeWith args)
      | some 'T' => typeVar
      | _ => fail .expectedReference) cursor :=
  rfl

/-- Where no bracket comes next, there is no array to read. -/
lemma referenceWith_eq {args : Reader (List ArgSig)} {cursor : Cursor}
    (h : cursor.rest.head? ≠ some '[') :
    referenceWith args cursor = namedTypeWith args cursor := by
  have hnone : (cursor.rest.takeWhile (· == '[')).length = 0 :=
    length_takeWhile_beq_iff.mpr ⟨cursor.rest, rfl, h⟩
  rw [referenceWith, Reader.bind_apply, countNext]
  simp only [hnone, if_true]

end Signature

/-! ## Types -/

section Types

open Signature

variable {text : String} {start opened lists : Nat} {again : ByteReader TypeSig}

/-- The reader simulates every reader of references, however many lists are open: together with
those that may still be opened, they are as many as ever may be. -/
def SimulatesReferences (text : String) (start : Nat) (again : ByteReader TypeSig) : Prop :=
  ∀ opened lists, opened + lists = maxOpenArguments →
    Simulates text start opened again (referenceWith (arguments lists))

lemma simulates_typeVar : Simulates text start opened ByteSignature.typeVar typeVar :=
  (simulates_expect 'T' .expectedTypeVar).bind fun _ => simulates_identifier.bind fun name =>
    (simulates_expect ';' .unclosedTypeVar).bind fun _ => .pure (TypeSig.var name)

lemma simulates_argument {reader : Reader TypeSig}
    (h : Simulates text start opened again reader) :
    Simulates text start opened (ByteSignature.argument again) (argumentWith reader) := by
  refine (simulates_accept '*').bind fun found => ?_
  cases found with
  | true => exact .pure ArgSig.any
  | false =>
    refine (simulates_accept '+').bind fun found => ?_
    cases found with
    | true => exact h.bind fun ty => .pure (ArgSig.extending ty)
    | false =>
      refine (simulates_accept '-').bind fun found => ?_
      cases found with
      | true => exact h.bind fun ty => .pure (ArgSig.superOf ty)
      | false => exact h.bind fun ty => .pure (ArgSig.exactly ty)

/-- An argument list, or no text at all. -/
lemma simulatesAt_list_or {cursor : Cursor} (hin : cursor.In text)
    {bytes : ByteReader (List ArgSig)} {reader : Reader (List ArgSig)}
    (h : cursor.rest.head? = some '<' → SimulatesAt text opened cursor bytes reader) :
    SimulatesAt text opened cursor
      (do
        match ← ByteReader.peek with
        | some '<' => bytes
        | _ => return [])
      (do
        match ← peek with
        | some '<' => reader
        | _ => return []) := by
  refine .byNext hin ?_
  generalize cursor.rest.head? = next at h ⊢
  split
  · exact h rfl
  · exact .read [] hin (Nat.le_refl _)

/-- References are read behind the mark that opens the list, so it is enough to know of them from
the next position on. -/
lemma simulates_arguments (hagain : SimulatesReferences text (start + 1) again)
    (hlists : opened + lists = maxOpenArguments) :
    Simulates text start opened (ByteSignature.arguments again) (arguments lists) := by
  intro cursor hin hle
  cases lists with
  | zero =>
    refine simulatesAt_list_or hin fun _ => .of_opened ?_
    rw [if_pos (by simpa using hlists)]
    exact simulatesAt_fail hin .nestedTooDeeply
  | succ lists =>
    refine simulatesAt_list_or hin fun hhead => .of_opened ?_
    obtain ⟨tail, htail⟩ := List.head?_eq_some_iff.mp hhead
    have hrest : cursor.rest = List.replicate 1 '<' ++ tail := htail
    have hreference : Simulates text (start + 1) (opened + 1) again
        (referenceWith (arguments lists)) := hagain _ _ (by omega)
    have hlist := ((simulates_argument hreference).repeatUntil_accept '>' takes_argument).nonempty
      .noTypeArgs
    rw [if_neg (by omega)]
    exact .skip_bind hin rfl hrest fun after hafter _ hoffset =>
      hlist.inList after hafter (by omega)

lemma simulates_classTypeWith (hagain : SimulatesReferences text (start + 1) again)
    (hlists : opened + lists = maxOpenArguments) :
    Simulates text start opened (ByteSignature.classTypeWith again)
      (classTypeWith (arguments lists)) := by
  have hmore : Simulates text start opened _ _ :=
    simulates_identifier.whileNext '/' takes_identifier
  have hargs := simulates_arguments hagain hlists
  have hsegment := simulates_identifier.bind fun name => hargs.bind fun args =>
    .pure (SegmentSig.mk name args)
  have hnested := hsegment.whileNext '.' takes_segment
  exact (simulates_expect 'L' .expectedClassType).bind fun _ => simulates_identifier.bind fun _ =>
    hmore.bind fun _ => hargs.bind fun _ => hnested.bind fun _ =>
    (simulates_expect ';' .unclosedClassType).bind fun _ => .pure _

/-- A primitive, or what another reader reads. -/
lemma simulatesAt_base_or {cursor : Cursor} (hin : cursor.In text) {bytes : ByteReader TypeSig}
    {reader : Reader TypeSig} (h : SimulatesAt text opened cursor bytes reader) :
    SimulatesAt text opened cursor (ByteSignature.anyTypeWith bytes)
      (do
        match (← peek).bind Primitive.ofLetter? with
        | some p =>
          skip 1
          return TypeSig.base p
        | none => reader) := by
  refine .byNext hin ?_
  cases hbase : cursor.rest.head?.bind Primitive.ofLetter? with
  | none => exact h
  | some p =>
      obtain ⟨c, hhead, hletter⟩ := Option.bind_eq_some_iff.mp hbase
      obtain ⟨tail, htail⟩ := List.head?_eq_some_iff.mp hhead
      have hrest : cursor.rest = List.replicate 1 c ++ tail := htail
      have hsize : c.utf8Size = 1 := by
        rw [Primitive.ofLetter?_eq_some_iff.mp hletter]
        cases p <;> rfl
      exact .skip_bind hin hsize hrest fun after hafter _ _ => .read _ hafter (Nat.le_refl _)

/-- Brackets are passed over all at once, so that a component is no array. -/
lemma simulatesAt_array (hagain : SimulatesReferences text (start + 1) again)
    (hlists : opened + lists = maxOpenArguments) {cursor : Cursor} (hin : cursor.In text)
    (hle : start ≤ cursor.offset) (hhead : cursor.rest.head? = some '[') :
    SimulatesAt text opened cursor
      (do
        let dims ← ByteReader.countNext '['
        if dims > maxDimensions then
          ByteReader.advance maxDimensions
          ByteReader.fail .tooManyDimensions
        else
          ByteReader.advance dims
          return (← ByteSignature.anyTypeWith again).arrayOf dims)
      (referenceWith (arguments lists)) := by
  refine (simulatesAt_countNext hin rfl).bind fun dims after hrun _ _ => ?_
  cases hrun
  obtain ⟨tail, hrest, htail⟩ := length_takeWhile_beq_iff.mp (Eq.refl (cursor.rest.takeWhile
    (· == '[')).length)
  generalize (cursor.rest.takeWhile (· == '[')).length = dims at hrest ⊢
  have hsome : dims ≠ 0 := by
    rintro rfl
    exact htail (by simpa [hrest] using hhead)
  rw [if_neg hsome]
  by_cases hmany : dims > maxDimensions
  · have hsplit : cursor.rest = List.replicate maxDimensions '[' ++
        (List.replicate (dims - maxDimensions) '[' ++ tail) := by
      rw [← List.append_assoc, List.replicate_append_replicate, Nat.add_sub_cancel' hmany.le, hrest]
    rw [if_pos hmany, if_pos hmany]
    exact .skip_bind hin rfl hsplit fun after hafter _ _ =>
      simulatesAt_fail hafter .tooManyDimensions
  · rw [if_neg hmany, if_neg hmany]
    refine .skip_bind hin rfl hrest fun after hafter hleft hoffset => ?_
    have hnext := hagain opened lists hlists after hafter (by omega)
    rw [SimulatesAt, referenceWith_eq (hleft ▸ htail)] at hnext
    exact (simulatesAt_base_or hafter hnext).bind fun element later _ hlater _ =>
      .read _ hlater (Nat.le_refl _)

/-- **References are read alike**, by recursion on the position. -/
theorem simulatesReferences_reference (text : String) (start : Nat) :
    SimulatesReferences text start ByteSignature.reference := by
  intro opened lists hlists
  refine Simulates.onward (fun opened reader => ∃ lists,
    opened + lists = maxOpenArguments ∧ reader = referenceWith (arguments lists)) ?_
    ⟨lists, hlists, rfl⟩
  rintro place - again hfamily opened _ ⟨lists, hlists, rfl⟩ cursor hin hle
  have hagain : SimulatesReferences text (place + 1) again :=
    fun opened lists h => hfamily opened _ ⟨lists, h, rfl⟩
  refine .of_peek hin ?_
  by_cases hbracket : cursor.rest.head? = some '['
  · rw [hbracket]
    exact simulatesAt_array hagain hlists hin hle hbracket
  rw [SimulatesAt, referenceWith_eq hbracket, namedTypeWith_apply, ← SimulatesAt]
  generalize cursor.rest.head? = next at hbracket ⊢
  split
  · exact (simulates_classTypeWith hagain hlists).map TypeSig.cls cursor hin hle
  · exact simulates_typeVar cursor hin hle
  · exact absurd rfl hbracket
  · rename_i hclass hvar _
    split
    · exact absurd rfl hclass
    · exact absurd rfl hvar
    · exact simulatesAt_fail hin .expectedReference

lemma simulates_reference : Simulates text start 0 ByteSignature.reference reference :=
  simulatesReferences_reference text start 0 maxOpenArguments (Nat.zero_add _)

lemma simulates_classType : Simulates text start 0 ByteSignature.classType classType :=
  simulates_classTypeWith (simulatesReferences_reference text (start + 1)) (Nat.zero_add _)

lemma simulates_anyType : Simulates text start 0 ByteSignature.anyType anyType :=
  fun cursor hin hle => simulatesAt_base_or hin (simulates_reference cursor hin hle)

/-! ## Declarations -/

/-- A type parameter whose name is known, read on from its bounds. -/
lemma simulates_bounds (name : String) :
    Simulates text start 0
      (do
        let classBound ←
          match ← ByteReader.peek with
          | some ':' | none => pure none
          | _ => some <$> ByteSignature.reference
        let interfaceBounds ← ByteReader.whileNext ':' ByteSignature.reference
        return ({ name, classBound, interfaceBounds } : ParamSig))
      (do
        let classBound ←
          match ← peek with
          | some ':' | none => pure none
          | _ => some <$> reference
        let interfaceBounds ← whileNext ':' reference
        return ({ name, classBound, interfaceBounds } : ParamSig)) := by
  have hbounds : ∀ classBound, Simulates text start 0 _ _ := fun classBound =>
    (simulates_reference.whileNext ':' takes_reference).bind fun interfaceBounds =>
      .pure (ParamSig.mk name classBound interfaceBounds)
  refine .byNext fun next => ?_
  split
  · exact (Simulates.pure none).bind hbounds
  · exact (Simulates.pure none).bind hbounds
  · exact (simulates_reference.map some).bind hbounds

lemma simulates_typeParam : Simulates text start 0 ByteSignature.typeParam typeParam :=
  simulates_identifier.bind fun name => (simulates_expect ':' .expectedClassBound).bind
    fun _ => simulates_bounds name

lemma simulates_typeParams : Simulates text start 0 ByteSignature.typeParams typeParams := by
  refine (simulates_accept '<').bind fun found => ?_
  cases found with
  | true =>
    exact (simulates_typeParam.repeatUntil_accept '>' takes_typeParam).nonempty .noTypeParams
  | false => exact .pure []

lemma simulates_endOfText : Simulates text start opened ByteSignature.endOfText endOfText := by
  refine simulates_atEnd.bind fun found => ?_
  cases found with
  | true => exact .pure ()
  | false => exact .fail .trailingText

lemma simulates_classDeclaration :
    Simulates text start 0 ByteSignature.classDeclaration classDeclaration :=
  simulates_typeParams.bind fun params => simulates_classType.bind fun superclass =>
    (simulates_atEnd.repeatUntil simulates_classType shortens_atEnd takes_classType).bind
      fun interfaces => .pure (ClassSig.mk params superclass interfaces)

lemma simulates_fieldDeclaration :
    Simulates text start 0 ByteSignature.fieldDeclaration fieldDeclaration :=
  simulates_anyType.bind fun ty => simulates_endOfText.bind fun _ => .pure ty

/-- A type variable, or what another reader reads. -/
lemma simulates_typeVar_or {bytes : ByteReader TypeSig} {reader : Reader TypeSig}
    (h : Simulates text start opened bytes reader) :
    Simulates text start opened
      (do
        match ← ByteReader.peek with
        | some 'T' => ByteSignature.typeVar
        | _ => bytes)
      (do
        match ← peek with
        | some 'T' => typeVar
        | _ => reader) := by
  refine .byNext fun next => ?_
  split
  · exact simulates_typeVar
  · exact h

lemma simulates_thrown : Simulates text start 0 ByteSignature.thrown thrown :=
  simulates_typeVar_or (simulates_classType.map TypeSig.cls)

lemma simulates_methodDeclaration :
    Simulates text start 0 ByteSignature.methodDeclaration methodDeclaration := by
  refine simulates_typeParams.bind fun params => (simulates_expect '(' .expectedParameters).bind
    fun _ => (simulates_anyType.repeatUntil_accept ')' takes_anyType).bind fun parameters =>
    (simulates_accept 'V').bind fun found => ?_
  have hthrows : ∀ result, Simulates text start 0 _ _ := fun result =>
    (simulates_thrown.whileNext '^' takes_thrown).bind fun throws =>
      simulates_endOfText.bind fun _ => .pure (MethodSig.mk params parameters result throws)
  cases found with
  | true => exact (Simulates.pure none).bind hthrows
  | false => exact (simulates_anyType.map some).bind hthrows

end Types

/-! ## Whole texts -/

/-- What is read of a text is a result, or a problem with this text at a place where a character
starts or the text ends. -/
def ReportsInside {α : Type} (text : String) : Except SignatureError α → Prop
  | .ok _ => True
  | .error error => ∃ position problem, error = .malformed text position problem ∧
      position ≤ text.utf8ByteSize ∧ String.Pos.Raw.IsValid text ⟨position⟩

lemma Simulates.read {α : Type} {text : String} {bytes : ByteReader α} {reader : Reader α}
    (h : Simulates text 0 0 bytes reader) :
    bytes.read text = .ok (reader.read text) ∧ ReportsInside text (reader.read text) := by
  have hanswer := h { rest := text.toList } (.start text) (Nat.le_refl 0)
  rw [SimulatesAt] at hanswer
  rw [ByteReader.read, Reader.read]
  generalize reader { rest := text.toList } = answer at hanswer ⊢
  generalize bytes text {} = answer' at hanswer ⊢
  cases hanswer with
  | read a _ _ => exact ⟨rfl, trivial⟩
  | @failed problem place hin =>
      exact ⟨rfl, place.offset, problem, rfl, hin.size_eq ▸ Nat.le_add_right _ _, hin.isValid⟩

/--
  **The parsers stay inside their text.**

  For every text: read by position, the three kinds of declarations end without a slip.  Nothing is
  cut off where no character starts, the position does not move back, each round of a loop and each
  nested reader starts further on than the one before, and no list is closed that is not open.  What
  they return is what the parsers return, and an error has the whole text with it and a position in
  it where a character starts or the text ends.
-/
theorem Signature.parse_stays_inside (text : String) :
    (ByteSignature.classDeclaration.read text = .ok (ClassSig.parse text) ∧
      ReportsInside text (ClassSig.parse text)) ∧
    (ByteSignature.fieldDeclaration.read text = .ok (TypeSig.parse text) ∧
      ReportsInside text (TypeSig.parse text)) ∧
    ByteSignature.methodDeclaration.read text = .ok (MethodSig.parse text) ∧
      ReportsInside text (MethodSig.parse text) :=
  ⟨simulates_classDeclaration.read, simulates_fieldDeclaration.read,
    simulates_methodDeclaration.read⟩

-- The last character takes two bytes.  To go on by one of them would have been a slip.
example : TypeSig.parse "Té" = .error (.malformed "Té" 3 .unclosedTypeVar) := by
  rfl

example : (ByteReader.advance 1).read "é" = .error (.offBoundary 1) := by
  rfl

end JavaGenerics
