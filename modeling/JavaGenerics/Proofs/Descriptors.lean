import JavaGenerics.Signature.Descriptor
import JavaGenerics.Proofs.SignatureDeclarations

/-!
# Descriptors among signatures

A descriptor is written like the signature of an erased type.  Yet the two are read by different
means: a signature character by character, each name up to the next character that delimits
something; the class in a descriptor as one piece up to its semicolon, cut at its slashes.

* `TypeSig.IsErased` — no variables, no type arguments, one segment in every class.
* `TypeSig.names` — the parts of the name of the class in such a type.
* `Signature.parseDescriptor_eq_ok_iff` — the grammar of descriptors.  A name may hold **any
  character but the two that the reader looks for.**
* `Signature.erased_iff_descriptor` — so the signatures of erased types are those descriptors whose
  names delimit nothing.  `Signature.dotted_descriptor` is one of the others.
-/

namespace JavaGenerics

/-- A type as erasure leaves it: no variable, no type argument, and every class is one segment. -/
def TypeSig.IsErased : TypeSig → Prop
  | .base _ => True
  | .cls sig => ∃ package name, sig = .mk package [.mk name []]
  | .var _ => False
  | .array component => component.IsErased

/-- An erased type that is no array is a primitive or a class. -/
lemma TypeSig.IsErased.base_or_cls {ty : TypeSig} (h : ty.IsErased) (hflat : ty.isArray = false) :
    (∃ p, ty = .base p) ∨ ∃ package name, ty = .cls (.mk package [.mk name []]) := by
  cases ty with
  | base p => exact Or.inl ⟨p, rfl⟩
  | cls sig =>
      obtain ⟨package, name, rfl⟩ := h
      exact Or.inr ⟨package, name, rfl⟩
  | var name => exact h.elim
  | array component => simp [TypeSig.isArray] at hflat

/-- The parts of a package and the names of the segments. -/
def ClassTypeSig.names (sig : ClassTypeSig) : List String :=
  sig.package ++ sig.segments.map SegmentSig.name

/-- The names that the class in a type is put together from, without those in its arguments. -/
def TypeSig.names : TypeSig → List String
  | .cls sig => sig.names
  | .array component => component.names
  | _ => []

/-- A part of a name as it stands between slashes and before a semicolon. -/
def IsNamePart (name : String) : Prop :=
  name ≠ "" ∧ '/' ∉ name.toList ∧ ';' ∉ name.toList

namespace Descriptor

/-! ## Names with slashes -/

lemma splitSlashes_eq_splitOn (cs : List Char) : splitSlashes cs = cs.splitOn '/' := by
  rw [List.splitOn_eq_splitOnP]
  induction cs with
  | nil => rfl
  | cons c rest ih =>
      rw [splitSlashes, List.splitOnP_cons_eq_if_modifyHead, ih]
      by_cases hc : c = '/'
      · simp [hc]
      · rw [if_neg hc, if_neg (by simpa using hc)]
        cases hrest : rest.splitOnP (· == '/') with
        | nil => exact absurd hrest (List.splitOnP_ne_nil _ rest)
        | cons => rfl

lemma not_mem_of_mem_splitSlashes {cs part : List Char} (h : part ∈ splitSlashes cs) :
    '/' ∉ part := by
  induction cs generalizing part with
  | nil => simp_all [splitSlashes]
  | cons c rest ih =>
      rw [splitSlashes] at h
      split at h
      · rcases List.mem_cons.mp h with rfl | h
        · exact List.not_mem_nil
        · exact ih h
      · rename_i hc
        split at h
        · rename_i first parts hrest
          rcases List.mem_cons.mp h with rfl | h
          · exact List.not_mem_cons_of_ne_of_not_mem (Ne.symm hc) (ih (by simp [hrest]))
          · exact ih (by simp [hrest, h])
        · rw [List.mem_singleton.mp h]
          simpa using Ne.symm hc

/-- Parts with a slash after each but the last are the parts with slashes between them. -/
lemma intercalate_names (package : List String) (name : String) :
    ['/'].intercalate ((package ++ [name]).map String.toList) =
      package.flatMap (fun part => part.toList ++ ['/']) ++ name.toList := by
  induction package with
  | nil => simp
  | cons part rest ih =>
      cases rest with
      | nil => simp [List.intercalate_cons_cons]
      | cons next rest =>
          simp only [List.cons_append, List.map_cons] at ih ⊢
          rw [List.intercalate_cons_cons, ih]
          simp

/-- **A class is named by parts that are not empty and hold no slash.** -/
lemma classNamed?_eq_some_iff {cs : List Char} {sig : ClassTypeSig} :
    classNamed? cs = some sig ↔ ∃ package name, sig = .mk package [.mk name []] ∧
      cs = package.flatMap (fun part => part.toList ++ ['/']) ++ name.toList ∧
      ∀ part ∈ package ++ [name], part ≠ "" ∧ '/' ∉ part.toList := by
  have hjoined : ['/'].intercalate (splitSlashes cs) = cs := by
    rw [splitSlashes_eq_splitOn, List.intercalate_splitOn]
  constructor
  · intro h
    simp only [classNamed?] at h
    split at h
    · cases h
    rename_i hparts
    split at h
    · rename_i name package hreverse
      obtain rfl := Option.some.inj h
      have hnames : (package.reverse ++ [name]).map String.toList = splitSlashes cs := by
        rw [← List.reverse_cons, ← hreverse, List.reverse_reverse, List.map_map]
        simp [Function.comp_def]
      refine ⟨package.reverse, name, rfl, ?_, fun part hpart => ?_⟩
      · rw [← intercalate_names, hnames, hjoined]
      · have hmem : part.toList ∈ splitSlashes cs := hnames ▸ List.mem_map_of_mem hpart
        refine ⟨?_, not_mem_of_mem_splitSlashes hmem⟩
        rintro rfl
        exact hparts (List.any_eq_true.mpr ⟨_, hmem, rfl⟩)
    · cases h
  · rintro ⟨package, name, rfl, rfl, hnames⟩
    have hsplit : splitSlashes (package.flatMap (fun part => part.toList ++ ['/']) ++ name.toList) =
        (package ++ [name]).map String.toList := by
      rw [splitSlashes_eq_splitOn, ← intercalate_names]
      refine List.splitOn_intercalate '/' (fun cs hcs => ?_) (by simp)
      obtain ⟨part, hpart, rfl⟩ := List.mem_map.mp hcs
      exact (hnames part hpart).2
    have hempty : "" ∉ package ++ [name] := fun h => (hnames "" h).1 rfl
    simpa [classNamed?, hsplit, Function.comp_def] using hempty

/-! ## Elements and arrays -/

/-- A text is cut at its first semicolon. -/
lemma cut_at_semicolon_iff {cs before after : List Char} :
    cs.takeWhile (· != ';') = before ∧ cs.dropWhile (· != ';') = ';' :: after ↔
      cs = before ++ ';' :: after ∧ ';' ∉ before := by
  constructor
  · rintro ⟨rfl, hdrop⟩
    refine ⟨by rw [← hdrop, List.takeWhile_append_dropWhile], fun hmem => ?_⟩
    simpa using List.all_eq_true.mp List.all_takeWhile _ hmem
  · rintro ⟨rfl, hbefore⟩
    have hall : ∀ c ∈ before, (c != ';') = true := fun c hc => by
      simpa using ne_of_mem_of_not_mem hc hbefore
    simp [List.takeWhile_append_of_pos hall, List.dropWhile_append_of_pos hall]

/-- A class is written as its names with slashes between them, up to a semicolon. -/
lemma written_class_iff {cs rest : List Char} {sig : ClassTypeSig} :
    ('L' :: cs = sig.text ++ rest ∧ (TypeSig.cls sig).IsErased ∧
        ∀ name ∈ sig.names, IsNamePart name) ↔
      ∃ before, cs = before ++ ';' :: rest ∧ ';' ∉ before ∧ classNamed? before = some sig := by
  have htext : ∀ package name, (ClassTypeSig.mk package [.mk name []]).text ++ rest =
      'L' :: (package.flatMap (fun part => part.toList ++ ['/']) ++ name.toList ++ ';' :: rest) := by
    simp [ClassTypeSig.text, SegmentSig.textJoined, SegmentSig.textNested, SegmentSig.text,
      ArgSig.textList]
  have hsemicolon : ∀ (package : List String) (name : String),
      ';' ∉ package.flatMap (fun part => part.toList ++ ['/']) ++ name.toList ↔
        ∀ part ∈ package ++ [name], ';' ∉ part.toList := by
    simp [or_imp, forall_and]
  simp only [classNamed?_eq_some_iff]
  constructor
  · rintro ⟨hcs, ⟨package, name, rfl⟩, hnames⟩
    rw [htext, List.cons.injEq] at hcs
    exact ⟨_, hcs.2, (hsemicolon package name).mpr fun part hpart => (hnames part hpart).2.2,
      package, name, rfl, rfl, fun part hpart => ⟨(hnames part hpart).1, (hnames part hpart).2.1⟩⟩
  · rintro ⟨_, rfl, hbefore, package, name, rfl, rfl, hnames⟩
    refine ⟨(htext package name).symm, ⟨package, name, rfl⟩, fun part hpart => ?_⟩
    exact ⟨(hnames part hpart).1, (hnames part hpart).2,
      (hsemicolon package name).mp hbefore part hpart⟩

/-- After the letter of a class comes its name, up to a semicolon. -/
lemma element_class_eq_ok_iff {cs rest : List Char} {ty : TypeSig} :
    element ('L' :: cs) = .ok (ty, rest) ↔ ∃ sig, ty = .cls sig ∧
      ∃ before, cs = before ++ ';' :: rest ∧ ';' ∉ before ∧ classNamed? before = some sig := by
  have hcut : ∀ before, cs = before ++ ';' :: rest ∧ ';' ∉ before ↔
      cs.takeWhile (· != ';') = before ∧ cs.dropWhile (· != ';') = ';' :: rest :=
    fun before => cut_at_semicolon_iff.symm
  simp only [← and_assoc, hcut]
  have hletter : Primitive.ofLetter? 'L' = none := rfl
  simp only [element, hletter, if_true]
  cases hdrop : cs.dropWhile (· != ';') with
  | nil => simp [refuse]
  | cons c after =>
      have hc : c = ';' := by
        have hhead := List.head?_dropWhile_not (· != ';') cs
        simpa [hdrop] using hhead
      cases hclass : classNamed? (cs.takeWhile (· != ';')) with
      | none => simp [refuse, hclass]
      | some found =>
          simp [hc, hclass, eq_comm, and_comm]

/-- Any other letter is that of a primitive. -/
lemma element_primitive_eq_ok_iff {letter : Char} {cs rest : List Char} {ty : TypeSig}
    (hletter : letter ≠ 'L') :
    element (letter :: cs) = .ok (ty, rest) ↔ ∃ p, ty = .base p ∧ letter = p.letter ∧ cs = rest := by
  simp only [← Primitive.ofLetter?_eq_some_iff]
  rw [element]
  cases Primitive.ofLetter? letter with
  | none => simp [refuse, hletter]
  | some p => simp [eq_comm]

/-- **An element is a primitive or a class of one segment, and its names are as they are between
slashes.** -/
lemma element_eq_ok_iff {cs rest : List Char} {ty : TypeSig} :
    element cs = .ok (ty, rest) ↔ cs = ty.text ++ rest ∧ ty.isArray = false ∧ ty.IsErased ∧
      ∀ name ∈ ty.names, IsNamePart name := by
  cases cs with
  | nil => simpa [element, refuse] using fun hempty => absurd hempty (Signature.text_ne_nil ty)
  | cons letter cs =>
      by_cases hL : letter = 'L'
      · subst hL
        rw [element_class_eq_ok_iff]
        simp only [← written_class_iff]
        constructor
        · rintro ⟨sig, rfl, hcs, herased, hnames⟩
          exact ⟨hcs, rfl, herased, hnames⟩
        · rintro ⟨hcs, hflat, herased, hnames⟩
          obtain ⟨p, rfl⟩ | ⟨package, name, rfl⟩ := herased.base_or_cls hflat
          · cases p <;> simp [TypeSig.text, Primitive.letter] at hcs
          · exact ⟨_, rfl, hcs, herased, hnames⟩
      · rw [element_primitive_eq_ok_iff hL]
        constructor
        · rintro ⟨p, rfl, rfl, rfl⟩
          exact ⟨by simp [TypeSig.text], rfl, trivial, by simp [TypeSig.names]⟩
        · rintro ⟨hcs, hflat, herased, -⟩
          obtain ⟨p, rfl⟩ | ⟨package, name, rfl⟩ := herased.base_or_cls hflat
          · exact ⟨p, rfl, by simpa [TypeSig.text] using hcs⟩
          · simp [TypeSig.text, ClassTypeSig.text, hL] at hcs

lemma isErased_arrayOf (ty : TypeSig) (dims : Nat) : (ty.arrayOf dims).IsErased ↔ ty.IsErased := by
  induction dims with
  | zero => rfl
  | succ dims ih => exact ih

lemma names_arrayOf (ty : TypeSig) (dims : Nat) : (ty.arrayOf dims).names = ty.names := by
  induction dims with
  | zero => rfl
  | succ dims ih => exact ih

/-- **A type is an element after at most as many brackets as an array may have.** -/
lemma fieldType_eq_ok_iff {cs rest : List Char} {ty : TypeSig} :
    fieldType cs = .ok (ty, rest) ↔ cs = ty.text ++ rest ∧ ty.IsErased ∧
      ty.dimensions.1 ≤ maxDimensions ∧ ∀ name ∈ ty.names, IsNamePart name := by
  constructor
  · intro h
    obtain ⟨dims, hcount⟩ : ∃ dims, (cs.takeWhile (· == '[')).length = dims := ⟨_, rfl⟩
    obtain ⟨tail, hcs, -⟩ := Reader.length_takeWhile_beq_iff.mp hcount
    simp only [fieldType, hcount] at h
    split at h
    · simp [refuse] at h
    rename_i hdims
    rw [hcs, List.drop_left' List.length_replicate] at h
    cases helement : element tail with
    | error e => simp [helement, Except.map] at h
    | ok read =>
        obtain ⟨element, after⟩ := read
        simp only [helement, Except.map, Except.ok.injEq, Prod.mk.injEq] at h
        obtain ⟨rfl, rfl⟩ := h
        obtain ⟨rfl, hflat, herased, hnames⟩ := element_eq_ok_iff.mp helement
        refine ⟨?_, (isErased_arrayOf element dims).mpr herased, ?_, ?_⟩
        · rw [hcs, Signature.text_arrayOf, List.append_assoc]
        · rw [Signature.dimensions_arrayOf hflat]
          omega
        · rwa [names_arrayOf]
  · rintro ⟨rfl, herased, hdims, hnames⟩
    obtain ⟨element, dims, hflat, rfl⟩ := Signature.exists_arrayOf ty
    rw [Signature.dimensions_arrayOf hflat] at hdims
    rw [isErased_arrayOf] at herased
    rw [names_arrayOf] at hnames
    rw [Signature.text_arrayOf, List.append_assoc]
    have hcount : ((List.replicate dims '[' ++ (element.text ++ rest)).takeWhile
        (· == '[')).length = dims :=
      Reader.length_takeWhile_beq_iff.mpr ⟨_, rfl, Signature.head?_ne_bracket hflat rest⟩
    have hread : Descriptor.element (element.text ++ rest) = .ok (element, rest) :=
      element_eq_ok_iff.mpr ⟨rfl, hflat, herased, hnames⟩
    simp only [fieldType, hcount, if_neg (Nat.not_lt.mpr hdims),
      List.drop_left' List.length_replicate, hread, Except.map]

end Descriptor

namespace Signature

/-- **The grammar of descriptors.**  A text is read as a descriptor exactly if it is how an erased
type is written, with no more dimensions than allowed, whose names are not empty and hold neither a
slash nor a semicolon. -/
theorem parseDescriptor_eq_ok_iff (text : String) (ty : TypeSig) :
    TypeSig.parseDescriptor text = .ok ty ↔ text = ty.render ∧ ty.IsErased ∧
      ty.dimensions.1 ≤ maxDimensions ∧ ∀ name ∈ ty.names, IsNamePart name := by
  have hwhole : TypeSig.parseDescriptor text = .ok ty ↔
      Descriptor.fieldType text.toList = .ok (ty, []) := by
    unfold TypeSig.parseDescriptor
    split <;> rename_i hread <;> simp [hread]
  rw [hwhole, Descriptor.fieldType_eq_ok_iff, List.append_nil, TypeSig.render,
    String.ext_iff, String.toList_ofList]

/-- An identifier is a part of a name that delimits nothing. -/
lemma isIdentifier_iff {name : String} : Reader.IsIdentifier name ↔
    IsNamePart name ∧ ∀ c ∈ name.toList, Reader.isDelimiter c = false := by
  constructor
  · rintro ⟨hne, hname⟩
    have hfree : ∀ c, Reader.isDelimiter c = true → c ∉ name.toList := fun c hc hmem => by
      simp [hname c hmem] at hc
    exact ⟨⟨hne, hfree '/' rfl, hfree ';' rfl⟩, hname⟩
  · exact fun ⟨hpart, hname⟩ => ⟨hpart.1, hname⟩

/-- What makes an erased type valid as a signature. -/
lemma valid_iff_of_isErased {ty : TypeSig} (h : ty.IsErased) (lists : Nat) :
    ty.Valid lists ↔
      ty.dimensions.1 ≤ maxDimensions ∧ ∀ name ∈ ty.names, Reader.IsIdentifier name := by
  obtain ⟨element, dims, hflat, rfl⟩ := exists_arrayOf ty
  rw [Descriptor.isErased_arrayOf] at h
  rw [valid_arrayOf hflat, dimensions_arrayOf hflat, Descriptor.names_arrayOf]
  refine and_congr_right fun _ => ?_
  obtain ⟨p, rfl⟩ | ⟨package, name, rfl⟩ := h.base_or_cls hflat
  · simp [TypeSig.Valid, TypeSig.names]
  · simp [TypeSig.Valid, ClassTypeSig.Valid, SegmentSig.ValidAll, SegmentSig.Valid,
      ArgSig.ValidList, TypeSig.names, ClassTypeSig.names, ClassTypeSig.package,
      ClassTypeSig.segments, SegmentSig.name, or_imp, forall_and]

/-- **The signatures of erased types are the descriptors whose names delimit nothing.**  For every
text and every tree: the tree is read from the text as a signature, and is erased, exactly if it is
read from the text as a descriptor and no name in it holds a character that ends an identifier.  A
descriptor may have names with such characters; what it has to be otherwise is what the second part
says. -/
theorem erased_iff_descriptor (text : String) (ty : TypeSig) :
    (TypeSig.parse text = .ok ty ∧ ty.IsErased ↔
      TypeSig.parseDescriptor text = .ok ty ∧
        ∀ name ∈ ty.names, ∀ c ∈ name.toList, Reader.isDelimiter c = false) ∧
    (TypeSig.parseDescriptor text = .ok ty ↔ text = ty.render ∧ ty.IsErased ∧
      ty.dimensions.1 ≤ maxDimensions ∧ ∀ name ∈ ty.names, IsNamePart name) := by
  refine ⟨?_, parseDescriptor_eq_ok_iff text ty⟩
  have hparse : TypeSig.parse text = .ok ty ↔ text = ty.render ∧ ty.Valid maxOpenArguments :=
    parse_eq_ok_iff reads_fieldDeclaration text ty
  rw [hparse, parseDescriptor_eq_ok_iff]
  constructor
  · rintro ⟨⟨htext, hvalid⟩, herased⟩
    obtain ⟨hdims, hnames⟩ := (valid_iff_of_isErased herased _).mp hvalid
    exact ⟨⟨htext, herased, hdims, fun name hname => (isIdentifier_iff.mp (hnames name hname)).1⟩,
      fun name hname => (hnames name hname).2⟩
  · rintro ⟨⟨htext, herased, hdims, hparts⟩, hnames⟩
    exact ⟨⟨htext, (valid_iff_of_isErased herased _).mpr ⟨hdims, fun name hname =>
      isIdentifier_iff.mpr ⟨hparts name hname, hnames name hname⟩⟩⟩, herased⟩

/-- A class whose package is written with dots is a descriptor, of a class without a package.  As a
signature the same text is three classes, one inside the other. -/
theorem dotted_descriptor :
    TypeSig.parseDescriptor "Ljava.lang.String;" =
        .ok (.cls (.mk [] [.mk "java.lang.String" []])) ∧
      TypeSig.parse "Ljava.lang.String;" =
        .ok (.cls (.mk [] [.mk "java" [], .mk "lang" [], .mk "String" []])) ∧
      ¬ ∀ text ty, TypeSig.parseDescriptor text = .ok ty ↔
        TypeSig.parse text = .ok ty ∧ ty.IsErased := by
  have hdescriptor : TypeSig.parseDescriptor "Ljava.lang.String;" =
      .ok (.cls (.mk [] [.mk "java.lang.String" []])) := rfl
  have hsignature : TypeSig.parse "Ljava.lang.String;" =
      .ok (.cls (.mk [] [.mk "java" [], .mk "lang" [], .mk "String" []])) := rfl
  refine ⟨hdescriptor, hsignature, fun hall => ?_⟩
  obtain ⟨hparse, -⟩ := (hall _ _).mp hdescriptor
  rw [hsignature] at hparse
  simp at hparse

end Signature

end JavaGenerics
