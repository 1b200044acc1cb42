import JavaGenerics.Proofs.SignatureText

/-!
# The readers of types read their grammar

Each reader of the grammar has a meaning: it reads the written forms of the valid trees of its kind,
and nothing else.

* `Signature.reads_classTypeWith`, `Signature.reads_referenceWith`, … — the readers of types, given
  a reader of argument lists.
* `Signature.reads_arguments` — argument lists, by induction on how many more may be opened.
-/

namespace JavaGenerics

open Reader

/-! ## Written forms of lists -/

lemma SegmentSig.textNested_eq (segments : List SegmentSig) :
    textNested segments = segments.flatMap fun segment => '.' :: segment.text := by
  induction segments with
  | nil => rfl
  | cons segment rest ih => simp [textNested, ih]

lemma ArgSig.textAll_eq (args : List ArgSig) : textAll args = args.flatMap text := by
  induction args with
  | nil => rfl
  | cons arg rest ih => simp [textAll, ih]

lemma ArgSig.textList_of_ne_nil {args : List ArgSig} (h : args ≠ []) :
    textList args = '<' :: (args.flatMap text ++ ['>']) := by
  cases args with
  | nil => exact absurd rfl h
  | cons arg rest => simp [textList, textAll_eq]

lemma SegmentSig.validAll_iff {lists : Nat} {segments : List SegmentSig} :
    ValidAll lists segments ↔ ∀ segment ∈ segments, segment.Valid lists := by
  induction segments with
  | nil => simp [ValidAll]
  | cons segment rest ih => simp [ValidAll, ih]

lemma ArgSig.validAll_iff {lists : Nat} {args : List ArgSig} :
    ValidAll lists args ↔ ∀ arg ∈ args, arg.Valid lists := by
  induction args with
  | nil => simp [ValidAll]
  | cons arg rest ih => simp [ValidAll, ih]

lemma ArgSig.validList_iff {lists : Nat} {args : List ArgSig} (h : args ≠ []) :
    ValidList lists args ↔ 0 < lists ∧ ∀ arg ∈ args, arg.Valid (lists - 1) := by
  cases args with
  | nil => exact absurd rfl h
  | cons arg rest => simp [ValidList, validAll_iff]

/-- The parts of a name with slashes between them are the package, each part before a slash, and the
last name. -/
lemma text_names (first : String) (more : List String) :
    first.toList ++ more.flatMap (fun name => '/' :: name.toList) =
      (first :: more).dropLast.flatMap (fun part => part.toList ++ ['/']) ++
        ((first :: more).getLast (List.cons_ne_nil _ _)).toList := by
  induction more generalizing first with
  | nil => simp
  | cons next rest ih => simp [ih next]

namespace Signature

/-- What is written down once, whatever follows. -/
abbrev Free {α : Type} : α → List Char → Prop :=
  fun _ _ => True

/-- An argument list that is empty does not show, so nothing that looks like one may follow. -/
def NoList (args : List ArgSig) (rest : List Char) : Prop :=
  args = [] → rest.head? ≠ some '<'

/-- The meaning of a reader of argument lists. -/
abbrev Arguments (lists : Nat) : Meaning (List ArgSig) :=
  Writes ArgSig.textList (ArgSig.ValidList lists) NoList

/-- The meaning of a reader of class types. -/
abbrev ClassTypes (lists : Nat) : Meaning ClassTypeSig :=
  Writes ClassTypeSig.text (ClassTypeSig.Valid lists) Free

/-- The meaning of a reader of class types and variables. -/
abbrev NamedTypes (lists : Nat) : Meaning TypeSig :=
  Writes TypeSig.text (fun ty => ty.isNamed = true ∧ ty.Valid lists) Free

/-- The meaning of a reader of references. -/
abbrev References (lists : Nat) : Meaning TypeSig :=
  Writes TypeSig.text (fun ty => ty.isReference = true ∧ ty.Valid lists) Free

/-! ## Variables -/

lemma reads_typeVar : Reads typeVar fun cs ty rest =>
    ∃ name, ty = .var name ∧ cs = ty.text ++ rest ∧ IsIdentifier name := by
  refine ((reads_expect 'T' .expectedTypeVar).bind fun _ => reads_identifier.bind fun name =>
    (reads_expect ';' .unclosedTypeVar).bind fun _ => reads_pure (TypeSig.var name)).congr ?_
  intro cs ty rest
  constructor
  · rintro ⟨_, _, rfl, name, _, ⟨rfl, hname, -⟩, _, _, rfl, rfl, rfl⟩
    exact ⟨name, rfl, by simp [TypeSig.text], hname⟩
  · rintro ⟨name, rfl, rfl, hname⟩
    exact ⟨(), name.toList ++ ';' :: rest, by simp [TypeSig.text], name, ';' :: rest,
      ⟨rfl, hname, ends_cons rfl rest⟩, (), rest, rfl, rfl, rfl⟩

/-! ## Class types -/

variable {lists : Nat} {args : Reader (List ArgSig)}

lemma segment_text_ne_nil {segment : SegmentSig} (h : segment.Valid lists) : segment.text ≠ [] := by
  obtain ⟨name, found⟩ := segment
  simp [SegmentSig.text, h.1.toList_ne_nil]

/-- What has to follow a segment: it must end the name, or continue the argument list. -/
def SegmentEnds (segment : SegmentSig) (rest : List Char) : Prop :=
  Ends (ArgSig.textList segment.args ++ rest) ∧ NoList segment.args rest

lemma reads_segment (hargs : Reads args (Arguments lists)) :
    Reads (do
      let name ← identifier
      return SegmentSig.mk name (← args))
      (Writes SegmentSig.text (SegmentSig.Valid lists) SegmentEnds) := by
  refine (reads_identifier.bind fun name => hargs.bind fun args =>
    reads_pure (SegmentSig.mk name args)).congr ?_
  intro cs segment rest
  constructor
  · rintro ⟨name, _, ⟨rfl, hname, hends⟩, found, _, ⟨rfl, hvalid, hnone⟩, rfl, rfl⟩
    exact ⟨by simp [SegmentSig.text], ⟨hname, hvalid⟩, hends, hnone⟩
  · obtain ⟨name, found⟩ := segment
    rintro ⟨rfl, ⟨hname, hvalid⟩, hends, hnone⟩
    exact ⟨name, _, ⟨by simp [SegmentSig.text, SegmentSig.args], hname, hends⟩, found, rest,
      ⟨rfl, hvalid, hnone⟩, rfl, rfl⟩

lemma ends_textList (args : List ArgSig) {rest : List Char} (h : Ends rest) :
    Ends (ArgSig.textList args ++ rest) := by
  cases args with
  | nil => exact h
  | cons => exact ends_cons rfl _

lemma segmentEnds_cons (segment : SegmentSig) {c : Char} (hc : isDelimiter c = true) (hne : c ≠ '<')
    (rest : List Char) : SegmentEnds segment (c :: rest) :=
  ⟨ends_textList _ (ends_cons hc rest), fun _ => by simpa using hne⟩

/-- Whatever comes between a segment and the end of its class type delimits. -/
lemma exists_delimiter (nested : List SegmentSig) (rest : List Char) :
    ∃ c tail, nested.flatMap (fun segment => '.' :: segment.text) ++ ';' :: rest = c :: tail ∧
      isDelimiter c = true ∧ c ≠ '<' ∧ c ≠ '/' := by
  cases nested with
  | nil => exact ⟨';', rest, rfl, rfl, by decide, by decide⟩
  | cons segment more => exact ⟨'.', _, rfl, rfl, by decide, by decide⟩

/-- A class type is a package, a first segment, and the segments nested in it. -/
lemma classType_cases {sig : ClassTypeSig} (h : sig.Valid lists) :
    ∃ first more firstArgs nested, sig = .mk (first :: more).dropLast
        (.mk ((first :: more).getLast (List.cons_ne_nil _ _)) firstArgs :: nested) := by
  obtain ⟨package, _ | ⟨⟨name, firstArgs⟩, nested⟩⟩ := sig
  · exact absurd rfl h.2.1
  obtain ⟨first, more, hnames⟩ : ∃ first more, package ++ [name] = first :: more := by
    cases package with
    | nil => exact ⟨name, [], rfl⟩
    | cons first parts => exact ⟨first, parts ++ [name], rfl⟩
  refine ⟨first, more, firstArgs, nested, ?_⟩
  simp only [← hnames, List.dropLast_concat, List.getLast_concat]

lemma classType_text_ne_nil (sig : ClassTypeSig) : sig.text ≠ [] := by
  obtain ⟨package, segments⟩ := sig
  simp [ClassTypeSig.text]

lemma classType_text (first : String) (more : List String) (firstArgs : List ArgSig)
    (nested : List SegmentSig) (rest : List Char) :
    (ClassTypeSig.mk (first :: more).dropLast
        (.mk ((first :: more).getLast (List.cons_ne_nil _ _)) firstArgs :: nested)).text ++ rest =
      'L' :: (first.toList ++ (more.flatMap (fun name => '/' :: name.toList) ++
        (ArgSig.textList firstArgs ++
          (nested.flatMap (fun segment => '.' :: segment.text) ++ ';' :: rest)))) := by
  have h := text_names first more
  simp only [ClassTypeSig.text, SegmentSig.textJoined, SegmentSig.text, SegmentSig.textNested_eq,
    List.cons_append, List.append_assoc, List.cons.injEq, true_and, List.nil_append]
  rw [← List.append_assoc (first.toList), h, List.append_assoc]

lemma classType_valid {first : String} {more : List String} {firstArgs : List ArgSig}
    {nested : List SegmentSig} :
    (ClassTypeSig.mk (first :: more).dropLast
        (.mk ((first :: more).getLast (List.cons_ne_nil _ _)) firstArgs :: nested)).Valid lists ↔
      (IsIdentifier first ∧ ∀ name ∈ more, IsIdentifier name) ∧
        ArgSig.ValidList lists firstArgs ∧ ∀ segment ∈ nested, segment.Valid lists := by
  have hsplit : (∀ name ∈ first :: more, IsIdentifier name) ↔
      (∀ part ∈ (first :: more).dropLast, IsIdentifier part) ∧
        IsIdentifier ((first :: more).getLast (List.cons_ne_nil _ _)) := by
    conv_lhs => rw [← List.dropLast_concat_getLast (List.cons_ne_nil first more)]
    simp only [List.forall_mem_append, List.forall_mem_singleton]
  rw [← List.forall_mem_cons, hsplit]
  simp only [ClassTypeSig.Valid, SegmentSig.ValidAll, SegmentSig.Valid, SegmentSig.validAll_iff,
    ne_eq, reduceCtorEq, not_false_eq_true, true_and, and_assoc]

/-- **A reader of class types**, given one of argument lists. -/
theorem reads_classTypeWith (hargs : Reads args (Arguments lists)) :
    Reads (classTypeWith args) (ClassTypes lists) := by
  have hname : Reads identifier (Writes String.toList IsIdentifier fun _ => Ends) :=
    reads_identifier
  have hnames := Reads.whileNext '/' hname (fun name h => h.toList_ne_nil)
    fun _ rest _ => ends_cons rfl rest
  have hnested := Reads.whileNext '.' (reads_segment hargs)
    (fun segment h => segment_text_ne_nil h)
    fun segment rest _ => segmentEnds_cons segment rfl (by decide) rest
  refine ((reads_expect 'L' .expectedClassType).bind fun _ => reads_identifier.bind fun first =>
    hnames.bind fun more => hargs.bind fun firstArgs => hnested.bind fun nested =>
    (reads_expect ';' .unclosedClassType).bind fun _ => reads_pure _).congr ?_
  intro cs sig rest
  constructor
  · rintro ⟨_, _, rfl, first, _, ⟨rfl, hfirst, -⟩, more, _, ⟨rfl, hmore, -⟩, firstArgs, _,
      ⟨rfl, hvalid, -⟩, nested, _, ⟨rfl, hsegments, -⟩, _, _, rfl, rfl, rfl⟩
    exact ⟨(classType_text first more firstArgs nested rest).symm,
      classType_valid.mpr ⟨⟨hfirst, hmore⟩, hvalid, hsegments⟩, trivial⟩
  · rintro ⟨rfl, hsig, -⟩
    obtain ⟨first, more, firstArgs, nested, rfl⟩ := classType_cases hsig
    obtain ⟨⟨hfirst, hmore⟩, hvalid, hsegments⟩ := classType_valid.mp hsig
    rw [classType_text]
    obtain ⟨c, tail, hc, hdelimiter, hlist, hslash⟩ := exists_delimiter nested rest
    have hends : Ends (ArgSig.textList firstArgs ++ (c :: tail)) :=
      ends_textList firstArgs (ends_cons hdelimiter tail)
    have hends' : Ends (more.flatMap (fun name => '/' :: name.toList) ++
        (ArgSig.textList firstArgs ++ (c :: tail))) := by
      cases more with
      | nil => exact hends
      | cons => exact ends_cons rfl _
    have hhead : (ArgSig.textList firstArgs ++ (c :: tail)).head? ≠ some '/' := by
      cases firstArgs with
      | nil => simpa [ArgSig.textList] using hslash
      | cons => simp [ArgSig.textList]
    rw [← hc] at hends hends' hhead
    refine ⟨(), _, rfl, first, _, ⟨rfl, hfirst, hends'⟩, more, _,
      ⟨rfl, hmore, hhead, fun _ _ => hends⟩, firstArgs, _, ⟨rfl, hvalid, fun _ => ?_⟩, nested, _,
      ⟨rfl, hsegments, by simp, fun segment _ => segmentEnds_cons segment rfl (by decide) rest⟩,
      (), rest, rfl, rfl, rfl⟩
    rw [hc]
    simpa using hlist

/-! ## Types -/

lemma isNamed_cases {ty : TypeSig} (h : ty.isNamed = true) :
    (∃ sig, ty = .cls sig) ∨ ∃ name, ty = .var name := by
  cases ty with
  | cls sig => exact Or.inl ⟨sig, rfl⟩
  | var name => exact Or.inr ⟨name, rfl⟩
  | _ => simp [TypeSig.isNamed] at h

lemma text_ne_nil (ty : TypeSig) : ty.text ≠ [] := by
  obtain _ | ⟨_, _⟩ | _ | _ := ty <;> simp [TypeSig.text, ClassTypeSig.text]

/-- The first character tells a class type from a variable. -/
lemma writes_isNamed_iff {cs rest : List Char} {ty : TypeSig} :
    NamedTypes lists cs ty rest ↔
      cs.head? = some 'L' ∧ (∃ sig, ClassTypes lists cs sig rest ∧ ty = .cls sig) ∨
      cs.head? = some 'T' ∧ ∃ name, ty = .var name ∧ cs = ty.text ++ rest ∧ IsIdentifier name := by
  constructor
  · rintro ⟨rfl, ⟨hnamed, hvalid⟩, -⟩
    rcases isNamed_cases hnamed with ⟨sig, rfl⟩ | ⟨name, rfl⟩
    · refine Or.inl ⟨?_, sig, ⟨rfl, hvalid, trivial⟩, rfl⟩
      obtain ⟨package, segments⟩ := sig
      simp [TypeSig.text, ClassTypeSig.text]
    · exact Or.inr ⟨by simp [TypeSig.text], name, rfl, rfl, hvalid⟩
  · rintro (⟨-, sig, ⟨rfl, hvalid, -⟩, rfl⟩ | ⟨-, name, rfl, rfl, hname⟩)
    · exact ⟨rfl, ⟨rfl, hvalid⟩, trivial⟩
    · exact ⟨rfl, ⟨rfl, hname⟩, trivial⟩

lemma reads_classOf {reader : Reader ClassTypeSig} {F : Meaning ClassTypeSig}
    (hreader : Reads reader F) :
    Reads (do return TypeSig.cls (← reader))
      fun cs ty rest => ∃ sig, F cs sig rest ∧ ty = .cls sig :=
  hreader.map TypeSig.cls

lemma reads_namedTypeWith (hargs : Reads args (Arguments lists)) :
    Reads (namedTypeWith args) (NamedTypes lists) := by
  refine (Reads.byNext (G := fun next cs ty rest =>
    next = some 'L' ∧ (∃ sig, ClassTypes lists cs sig rest ∧ ty = .cls sig) ∨
    next = some 'T' ∧ ∃ name, ty = .var name ∧ cs = ty.text ++ rest ∧ IsIdentifier name)
    fun next => ?_).congr fun cs ty rest => writes_isNamed_iff.symm
  split
  · exact (reads_classOf (reads_classTypeWith hargs)).congr (by simp)
  · exact reads_typeVar.congr (by simp)
  · rename_i hL hT
    exact (reads_fail _).congr fun cs ty rest => iff_of_false id (by
      rintro (⟨h, -⟩ | ⟨h, -⟩)
      exacts [hL h, hT h])

/-- A reference starts with one of three characters. -/
lemma exists_text_of_isReference {ty : TypeSig} (h : ty.isReference = true) :
    ∃ c tail, ty.text = c :: tail ∧ c ∈ ['L', 'T', '['] := by
  obtain _ | ⟨_, _⟩ | _ | _ := ty
  · simp [TypeSig.isReference] at h
  · exact ⟨'L', _, by rw [TypeSig.text, ClassTypeSig.text], by decide⟩
  · exact ⟨'T', _, by rw [TypeSig.text], by decide⟩
  · exact ⟨'[', _, by rw [TypeSig.text], by decide⟩

/-- A primitive is told from every other type by its first character. -/
lemma ofLetter?_head {ty : TypeSig} (h : ty.isReference = true) (rest : List Char) :
    (ty.text ++ rest).head?.bind Primitive.ofLetter? = none := by
  obtain ⟨c, tail, htext, hc⟩ := exists_text_of_isReference h
  rw [htext, List.cons_append, List.head?_cons, Option.bind_some]
  simp only [List.mem_cons, List.not_mem_nil, or_false] at hc
  rcases hc with rfl | rfl | rfl <;> rfl

/-- A primitive, or what another reader reads. -/
lemma reads_base_or {reader : Reader TypeSig} {valid : TypeSig → Prop}
    (hreader : Reads reader (Writes TypeSig.text valid Free))
    (hvalid : ∀ ty, valid ty → ty.isReference = true) :
    Reads (do
      match (← peek).bind Primitive.ofLetter? with
      | some p =>
        skip 1
        return TypeSig.base p
      | none => reader)
      (Writes TypeSig.text (fun ty => ty.isReference = false ∨ valid ty) Free) := by
  refine (Reads.byNext (G := fun next cs ty rest =>
    (∃ p, next.bind Primitive.ofLetter? = some p ∧ ty = .base p ∧ rest = cs.drop 1) ∨
    next.bind Primitive.ofLetter? = none ∧ Writes TypeSig.text valid Free cs ty rest)
    fun next => ?_).congr ?_
  · split
    · rename_i p hp
      refine ((reads_skip 1).bind fun _ => reads_pure (TypeSig.base p)).congr fun cs ty rest => ?_
      simp only [hp, Option.some.injEq, reduceCtorEq, false_and, or_false, exists_eq_left']
      constructor
      · rintro ⟨_, _, rfl, rfl, rfl⟩
        exact ⟨rfl, rfl⟩
      · rintro ⟨rfl, rfl⟩
        exact ⟨(), _, rfl, rfl, rfl⟩
    · rename_i hnone
      exact hreader.congr (by simp [hnone])
  · intro cs ty rest
    constructor
    · rintro (⟨p, hp, rfl, rfl⟩ | ⟨-, rfl, h, -⟩)
      · obtain ⟨c, hc, hletter⟩ := Option.bind_eq_some_iff.mp hp
        obtain ⟨tail, rfl⟩ := List.head?_eq_some_iff.mp hc
        rw [Primitive.ofLetter?_eq_some_iff] at hletter
        exact ⟨by simp [TypeSig.text, hletter], Or.inl rfl, trivial⟩
      · exact ⟨rfl, Or.inr h, trivial⟩
    · rintro ⟨rfl, hbase | h, -⟩
      · cases ty with
        | base p =>
            exact Or.inl ⟨p, by simp [TypeSig.text, Primitive.ofLetter?_eq_some_iff], rfl,
              by simp [TypeSig.text]⟩
        | _ => simp [TypeSig.isReference] at hbase
      · exact Or.inr ⟨ofLetter?_head (hvalid ty h) rest, rfl, h, trivial⟩

/-! ## Arrays -/

lemma text_arrayOf (element : TypeSig) (dims : Nat) :
    (element.arrayOf dims).text = List.replicate dims '[' ++ element.text := by
  induction dims with
  | zero => rfl
  | succ dims ih => rw [TypeSig.arrayOf, TypeSig.text, ih, List.replicate_succ, List.cons_append]

lemma dimensions_arrayOf {element : TypeSig} (h : element.isArray = false) (dims : Nat) :
    (element.arrayOf dims).dimensions.1 = dims := by
  induction dims with
  | zero =>
      cases element with
      | array => simp [TypeSig.isArray] at h
      | _ => rfl
  | succ dims ih => rw [TypeSig.arrayOf, TypeSig.dimensions, ih]

/-- The dimensions of an array are limited where they are counted, at its outermost bracket. -/
lemma valid_arrayOf {element : TypeSig} (h : element.isArray = false) (dims : Nat) :
    (element.arrayOf dims).Valid lists ↔ dims ≤ maxDimensions ∧ element.Valid lists := by
  induction dims with
  | zero => simp [TypeSig.arrayOf]
  | succ dims ih =>
      rw [TypeSig.arrayOf, TypeSig.Valid, dimensions_arrayOf h, ih]
      constructor
      · exact fun ⟨hdims, _, hvalid⟩ => ⟨hdims, hvalid⟩
      · exact fun ⟨hdims, hvalid⟩ => ⟨hdims, by omega, hvalid⟩

/-- Every type is an array of some number of dimensions over one that is no array. -/
lemma exists_arrayOf : ∀ ty : TypeSig, ∃ (element : TypeSig) (dims : Nat),
    element.isArray = false ∧ ty = element.arrayOf dims
  | .base p => ⟨.base p, 0, rfl, rfl⟩
  | .cls sig => ⟨.cls sig, 0, rfl, rfl⟩
  | .var name => ⟨.var name, 0, rfl, rfl⟩
  | .array component => by
    obtain ⟨element, dims, hflat, rfl⟩ := exists_arrayOf component
    exact ⟨element, dims + 1, hflat, rfl⟩

lemma head?_ne_bracket {ty : TypeSig} (h : ty.isArray = false) (rest : List Char) :
    (ty.text ++ rest).head? ≠ some '[' := by
  obtain p | ⟨_, _⟩ | _ | _ := ty
  · cases p <;> simp [TypeSig.text, Primitive.letter]
  · simp [TypeSig.text, ClassTypeSig.text]
  · simp [TypeSig.text]
  · simp [TypeSig.isArray] at h

/-- Brackets, and then an element that is no array. -/
lemma reads_elementWith (hargs : Reads args (Arguments lists)) :
    Reads (elementWith args)
      (Writes TypeSig.text (fun ty => ty.isArray = false ∧ ty.Valid lists) Free) := by
  refine (reads_base_or (reads_namedTypeWith hargs) fun ty h => ?_).congr fun cs ty rest => ?_
  · rcases isNamed_cases h.1 with ⟨sig, rfl⟩ | ⟨name, rfl⟩ <;> rfl
  · refine and_congr_right fun _ => and_congr_left fun _ => ?_
    cases ty <;> simp [TypeSig.isReference, TypeSig.isNamed, TypeSig.isArray, TypeSig.Valid]

/-- **A reader of references**, given one of argument lists. -/
theorem reads_referenceWith (hargs : Reads args (Arguments lists)) :
    Reads (referenceWith args) (References lists) := by
  refine ((reads_countNext '[').bind fun dims => (reads_namedTypeWith hargs).ite
    (((reads_skip maxDimensions).bind fun _ => reads_fail _).ite
      ((reads_skip dims).bind fun _ => (reads_elementWith hargs).bind fun element =>
        reads_pure (element.arrayOf dims)))).congr fun cs ty rest => ?_
  constructor
  · rintro ⟨dims, _, ⟨⟨tail, rfl, -⟩, rfl⟩, h⟩
    split at h
    · obtain ⟨htext, ⟨hnamed, hvalid⟩, -⟩ := h
      refine ⟨htext, ⟨?_, hvalid⟩, trivial⟩
      rcases isNamed_cases hnamed with ⟨sig, rfl⟩ | ⟨name, rfl⟩ <;> rfl
    rename_i hsome
    split at h
    · obtain ⟨_, _, -, hfalse⟩ := h
      exact hfalse.elim
    · rename_i hfew
      obtain ⟨_, _, rfl, element, _, ⟨htail, ⟨hflat, hvalid⟩, -⟩, rfl, rfl⟩ := h
      rw [List.drop_left' List.length_replicate] at htail
      refine ⟨by rw [htail, text_arrayOf, List.append_assoc], ⟨?_, ?_⟩, trivial⟩
      · obtain ⟨more, rfl⟩ := Nat.exists_eq_succ_of_ne_zero hsome
        rfl
      · exact (valid_arrayOf hflat dims).mpr ⟨by omega, hvalid⟩
  · rintro ⟨rfl, ⟨hreference, hvalid⟩, -⟩
    obtain ⟨element, dims, hflat, rfl⟩ := exists_arrayOf ty
    obtain ⟨hdims, hvalid⟩ := (valid_arrayOf hflat dims).mp hvalid
    refine ⟨dims, _, ⟨⟨element.text ++ rest, by rw [text_arrayOf, List.append_assoc],
      head?_ne_bracket hflat rest⟩, rfl⟩, ?_⟩
    split
    · rename_i hzero
      subst hzero
      refine ⟨rfl, ⟨?_, hvalid⟩, trivial⟩
      cases element <;> simp_all [TypeSig.arrayOf, TypeSig.isReference, TypeSig.isNamed,
        TypeSig.isArray]
    rw [if_neg (by omega)]
    refine ⟨(), _, rfl, element, rest, ⟨?_, ⟨hflat, hvalid⟩, trivial⟩, rfl, rfl⟩
    rw [text_arrayOf, List.append_assoc, List.drop_left' List.length_replicate]

/-! ## Arguments -/

lemma argument_text_head {arg : ArgSig} (h : arg.Valid lists) :
    ∃ c tail, arg.text = c :: tail ∧ c ∈ ['*', '+', '-', 'L', 'T', '['] := by
  cases arg with
  | any => exact ⟨'*', [], rfl, by decide⟩
  | extending bound => exact ⟨'+', _, by rw [ArgSig.text], by decide⟩
  | superOf bound => exact ⟨'-', _, by rw [ArgSig.text], by decide⟩
  | exactly ty =>
      rw [ArgSig.Valid] at h
      obtain ⟨c, tail, htext, hc⟩ := exists_text_of_isReference h.1
      exact ⟨c, tail, by rw [ArgSig.text, htext], List.mem_append_right ['*', '+', '-'] hc⟩

lemma argument_text_ne_nil {arg : ArgSig} (h : arg.Valid lists) : arg.text ≠ [] := by
  obtain ⟨c, tail, htext, -⟩ := argument_text_head h
  exact htext ▸ List.cons_ne_nil c tail

lemma reads_argumentWith {reference : Reader TypeSig}
    (hreference : Reads reference (References lists)) :
    Reads (argumentWith reference) (Writes ArgSig.text (ArgSig.Valid lists) Free) := by
  refine ((reads_accept '*').bind fun _ => (reads_pure ArgSig.any).ite <|
    (reads_accept '+').bind fun _ =>
    (hreference.bind fun ty => reads_pure (ArgSig.extending ty)).ite <|
    (reads_accept '-').bind fun _ =>
    (hreference.bind fun ty => reads_pure (ArgSig.superOf ty)).ite <|
    hreference.bind fun ty => reads_pure (ArgSig.exactly ty)).congr fun cs arg rest => ?_
  constructor
  · rintro ⟨_, _, ⟨rfl, rfl⟩ | ⟨rfl, -, rfl⟩, h⟩
    · obtain ⟨rfl, rfl⟩ := h
      exact ⟨rfl, trivial, trivial⟩
    obtain ⟨_, _, ⟨rfl, rfl⟩ | ⟨rfl, -, rfl⟩, h⟩ := h
    · obtain ⟨ty, _, ⟨rfl, hvalid, -⟩, rfl, rfl⟩ := h
      exact ⟨rfl, hvalid, trivial⟩
    obtain ⟨_, _, ⟨rfl, rfl⟩ | ⟨rfl, -, rfl⟩, h⟩ := h
    · obtain ⟨ty, _, ⟨rfl, hvalid, -⟩, rfl, rfl⟩ := h
      exact ⟨rfl, hvalid, trivial⟩
    · obtain ⟨ty, _, ⟨rfl, hvalid, -⟩, rfl, rfl⟩ := h
      exact ⟨rfl, hvalid, trivial⟩
  · rintro ⟨rfl, hvalid, -⟩
    cases arg with
    | any => exact ⟨true, rest, Or.inl ⟨rfl, rfl⟩, rfl, rfl⟩
    | extending bound =>
        exact ⟨false, _, Or.inr ⟨rfl, by simp [ArgSig.text], rfl⟩, true, _, Or.inl ⟨rfl, rfl⟩,
          bound, rest, ⟨rfl, hvalid, trivial⟩, rfl, rfl⟩
    | superOf bound =>
        exact ⟨false, _, Or.inr ⟨rfl, by simp [ArgSig.text], rfl⟩, false, _,
          Or.inr ⟨rfl, by simp [ArgSig.text], rfl⟩, true, _, Or.inl ⟨rfl, rfl⟩,
          bound, rest, ⟨rfl, hvalid, trivial⟩, rfl, rfl⟩
    | exactly ty =>
        rw [ArgSig.Valid] at hvalid
        obtain ⟨c, tail, htext, hc⟩ := exists_text_of_isReference hvalid.1
        have hne : ∀ d, d ∉ ['L', 'T', '['] →
            ((ArgSig.exactly ty).text ++ rest).head? ≠ some d := by
          rintro d hd h
          rw [ArgSig.text, htext, List.cons_append, List.head?_cons, Option.some.injEq] at h
          exact hd (h ▸ hc)
        exact ⟨false, _, Or.inr ⟨rfl, hne '*' (by decide), rfl⟩, false, _,
          Or.inr ⟨rfl, hne '+' (by decide), rfl⟩, false, _, Or.inr ⟨rfl, hne '-' (by decide), rfl⟩,
          ty, rest, ⟨rfl, hvalid, trivial⟩, rfl, rfl⟩

/-- No text at all, or a list that is not empty. -/
lemma reads_list_or {opened : Reader (List ArgSig)} {F : Meaning (List ArgSig)}
    (hopened : Reads opened F)
    (hF : ∀ cs found rest, cs.head? = some '<' →
      (F cs found rest ↔
        found ≠ [] ∧ cs = ArgSig.textList found ++ rest ∧ ArgSig.ValidList lists found)) :
    Reads (do
      match ← peek with
      | some '<' => opened
      | _ => return []) (Arguments lists) := by
  refine (Reads.byNext (G := fun next cs found rest => next = some '<' ∧ F cs found rest ∨
    next ≠ some '<' ∧ found = [] ∧ rest = cs) fun next => ?_).congr fun cs found rest => ?_
  · split
    · exact hopened.congr (by simp)
    · rename_i hnext
      have hnext : next ≠ some '<' := hnext
      exact (reads_pure []).congr (by simp [hnext])
  · constructor
    · rintro (⟨hhead, h⟩ | ⟨hhead, rfl, rfl⟩)
      · obtain ⟨hne, rfl, hvalid⟩ := (hF _ found rest hhead).mp h
        exact ⟨rfl, hvalid, fun h => absurd h hne⟩
      · exact ⟨rfl, trivial, fun _ => hhead⟩
    · rintro ⟨rfl, hvalid, hnone⟩
      by_cases hne : found = []
      · subst hne
        exact Or.inr ⟨hnone rfl, rfl, rfl⟩
      · have hhead : (ArgSig.textList found ++ rest).head? = some '<' := by
          rw [ArgSig.textList_of_ne_nil hne, List.cons_append, List.head?_cons]
        exact Or.inl ⟨hhead, (hF _ found rest hhead).mpr ⟨hne, rfl, hvalid⟩⟩

/-- **Argument lists are read as they are written**, by induction on how many may be opened. -/
theorem reads_arguments : ∀ lists, Reads (arguments lists) (Arguments lists)
  | 0 => by
    refine reads_list_or (reads_fail .nestedTooDeeply) fun cs found rest _ =>
      iff_of_false id fun ⟨hne, _, hvalid⟩ => ?_
    exact absurd ((ArgSig.validList_iff hne).mp hvalid).1 (Nat.lt_irrefl 0)
  | lists + 1 => by
    have hne : ∀ arg : ArgSig, arg.Valid lists → arg.text ≠ [] :=
      fun arg h => argument_text_ne_nil h
    have hopen : ∀ arg : ArgSig, arg.Valid lists → arg.text.head? ≠ some '>' := by
      intro arg h hclose
      obtain ⟨c, tail, htext, hc⟩ := argument_text_head h
      rw [htext, List.head?_cons, Option.some.injEq] at hclose
      exact absurd (hclose ▸ hc) (by decide)
    have hlist := Reads.repeatUntil_accept '>'
      (reads_argumentWith (reads_referenceWith (reads_arguments lists)))
      (fun cs arg mid => Writes.length_lt hne) (fun _ _ _ _ => Iff.rfl) hne hopen
      (fun _ _ _ => trivial) fun _ _ _ _ _ => trivial
    refine reads_list_or ((reads_skip 1).bind fun _ => hlist.nonempty .noTypeArgs)
      fun cs found rest hhead => ?_
    obtain ⟨tail, rfl⟩ := List.head?_eq_some_iff.mp hhead
    constructor
    · rintro ⟨_, _, rfl, ⟨htail, hvalid⟩, hsome⟩
      refine ⟨hsome, ?_, (ArgSig.validList_iff hsome).mpr ⟨Nat.succ_pos lists, hvalid⟩⟩
      rw [htail, ArgSig.textList_of_ne_nil hsome]
      simp
    · rintro ⟨hsome, htext, hvalid⟩
      rw [ArgSig.textList_of_ne_nil hsome, List.cons_append, List.cons.injEq] at htext
      exact ⟨(), _, rfl, ⟨by simpa using htext.2, ((ArgSig.validList_iff hsome).mp hvalid).2⟩,
        hsome⟩

end Signature

end JavaGenerics
