import JavaGenerics.Proofs.SignatureGrammar

/-!
# The parsers accept their grammar

Whole declarations, put together from the readers of types.  What has to be looked after here is
what may be missing: a class bound, a list of type parameters, a result.

* `Signature.reads_typeParam` — a type parameter.  At the end of a text it may lack all its bounds,
  but then its list is not closed.
* `Signature.parse_iff` — **a text is accepted with a tree exactly if it is how that tree is
  written, and the tree is valid.**
-/

namespace JavaGenerics

namespace Signature

open Reader

/-! ## Types in declarations -/

lemma reads_classType : Reads classType (ClassTypes maxOpenArguments) :=
  reads_classTypeWith (reads_arguments maxOpenArguments)

lemma reads_reference : Reads reference (References maxOpenArguments) :=
  reads_referenceWith (reads_arguments maxOpenArguments)

lemma reads_anyType :
    Reads anyType (Writes TypeSig.text (TypeSig.Valid maxOpenArguments) Free) := by
  refine (reads_base_or reads_reference fun ty h => h.1).congr fun cs ty rest => ?_
  refine and_congr_right fun _ => and_congr_left fun _ => ?_
  cases ty <;> simp [TypeSig.isReference, TypeSig.Valid]

lemma reads_endOfText : Reads endOfText fun cs _ rest => cs = [] ∧ rest = [] := by
  refine (reads_atEnd.bind fun _ => (reads_pure ()).ite (reads_fail .trailingText)).congr
    fun cs u rest => ?_
  constructor
  · rintro ⟨_, _, ⟨rfl, rfl⟩, h⟩
    split at h
    · rename_i hempty
      exact ⟨List.isEmpty_iff.mp hempty, h.2.trans (List.isEmpty_iff.mp hempty)⟩
    · exact h.elim
  · rintro ⟨rfl, rfl⟩
    exact ⟨true, [], ⟨rfl, rfl⟩, rfl, rfl⟩

/-! ## Type parameters -/

/-- A type parameter whose name and class bound are known, read on from its interface bounds. -/
abbrev InterfaceBounds (name : String) (classBound : Option TypeSig) : Meaning ParamSig :=
  fun cs param rest => ∃ bounds, param = ⟨name, classBound, bounds⟩ ∧
    cs = bounds.flatMap (fun bound => ':' :: bound.text) ++ rest ∧
    (∀ bound ∈ bounds, bound.isReference = true ∧ bound.Valid maxOpenArguments) ∧
    rest.head? ≠ some ':'

lemma reads_interfaceBounds (name : String) (classBound : Option TypeSig) :
    Reads (do
      let interfaceBounds ← whileNext ':' reference
      return ({ name, classBound, interfaceBounds } : ParamSig))
      (InterfaceBounds name classBound) := by
  have hbounds := Reads.whileNext ':' reads_reference (fun ty _ => text_ne_nil ty)
    fun _ _ _ => trivial
  refine (hbounds.bind fun bounds => reads_pure _).congr fun cs param rest => ?_
  constructor
  · rintro ⟨bounds, _, ⟨rfl, hvalid, hhead, -⟩, rfl, rfl⟩
    exact ⟨bounds, rfl, rfl, hvalid, hhead⟩
  · rintro ⟨bounds, rfl, rfl, hvalid, hhead⟩
    exact ⟨bounds, rest, ⟨rfl, hvalid, hhead, fun _ _ => trivial⟩, rfl, rfl⟩

/-- A type parameter whose name is known, read on from its bounds.  The class bound is missing where
the next character is the colon of an interface bound, or where the text ends. -/
lemma reads_bounds (name : String) :
    Reads (do
      let classBound ←
        match ← peek with
        | some ':' | none => pure none
        | _ => some <$> reference
      let interfaceBounds ← whileNext ':' reference
      return ({ name, classBound, interfaceBounds } : ParamSig)) fun cs param rest =>
      (cs.head? = some ':' ∨ cs.head? = none) ∧ InterfaceBounds name none cs param rest ∨
      cs.head? ≠ some ':' ∧ cs.head? ≠ none ∧ ∃ bound mid,
        References maxOpenArguments cs bound mid ∧
          InterfaceBounds name (some bound) mid param rest := by
  refine Reads.byNext (G := fun next cs param rest =>
    (next = some ':' ∨ next = none) ∧ InterfaceBounds name none cs param rest ∨
    next ≠ some ':' ∧ next ≠ none ∧ ∃ bound mid, References maxOpenArguments cs bound mid ∧
      InterfaceBounds name (some bound) mid param rest) fun next => ?_
  have habsent := (reads_pure none).bind (reads_interfaceBounds name)
  split
  · exact habsent.congr (by simp)
  · exact habsent.congr (by simp)
  · rename_i hcolon hend
    have hcolon : next ≠ some ':' := hcolon
    have hend : next ≠ none := hend
    refine ((reads_reference.map some).bind (reads_interfaceBounds name)).congr
      fun cs param rest => ?_
    constructor
    · rintro ⟨_, mid, ⟨bound, hbound, rfl⟩, hbounds⟩
      exact Or.inr ⟨hcolon, hend, bound, mid, hbound, hbounds⟩
    · rintro (⟨hnext, -⟩ | ⟨-, -, bound, mid, hbound, hbounds⟩)
      · exact absurd hnext (not_or.mpr ⟨hcolon, hend⟩)
      · exact ⟨some bound, mid, ⟨bound, hbound, rfl⟩, hbounds⟩

/-- A type parameter that no further bound follows.  Without a bound, it ends the text. -/
abbrev ParamBefore : Meaning ParamSig :=
  fun cs param rest => cs = param.text ++ rest ∧ IsIdentifier param.name ∧
    (∀ bound ∈ param.bounds, bound.isReference = true ∧ bound.Valid maxOpenArguments) ∧
    rest.head? ≠ some ':' ∧ (param.bounds = [] → rest = [])

lemma ParamBefore.length_lt {cs rest : List Char} {param : ParamSig}
    (h : ParamBefore cs param rest) : rest.length < cs.length := by
  rw [h.1, List.length_append, ParamSig.text, List.length_append, List.length_cons]
  omega

/-- **A type parameter is read to the end of its bounds.** -/
theorem reads_typeParam : Reads typeParam ParamBefore := by
  refine (reads_identifier.bind fun name => (reads_expect ':' .expectedClassBound).bind fun _ =>
    reads_bounds name).congr fun cs param rest => ?_
  constructor
  · rintro ⟨name, _, ⟨rfl, hname, -⟩, _, _, rfl, ⟨hnext, bounds, rfl, rfl, hbounds, hhead⟩ |
      ⟨-, -, bound, _, ⟨rfl, hbound, -⟩, bounds, rfl, rfl, hbounds, hhead⟩⟩
    · refine ⟨by simp [ParamSig.text], hname, by simpa [ParamSig.bounds] using hbounds, hhead, ?_⟩
      intro hnone
      obtain rfl : bounds = [] := by simpa [ParamSig.bounds] using hnone
      exact List.head?_eq_none_iff.mp (hnext.resolve_left hhead)
    · refine ⟨by simp [ParamSig.text], hname, ?_, hhead, by simp [ParamSig.bounds]⟩
      exact List.forall_mem_cons.mpr ⟨hbound, hbounds⟩
  · obtain ⟨name, classBound, bounds⟩ := param
    rintro ⟨rfl, hname, hbounds, hhead, hend⟩
    rw [ParamSig.text, List.append_assoc, List.cons_append]
    refine ⟨name, _, ⟨rfl, hname, ends_cons rfl _⟩, (), _, rfl, ?_⟩
    cases classBound with
    | none =>
        refine Or.inl ⟨?_, bounds, rfl, by simp, by simpa [ParamSig.bounds] using hbounds, hhead⟩
        cases bounds with
        | nil => simp [hend rfl]
        | cons bound more => simp
    | some bound =>
        obtain ⟨hbound, hbounds⟩ := List.forall_mem_cons.mp hbounds
        obtain ⟨c, tail, htext, hc⟩ := exists_text_of_isReference hbound.1
        refine Or.inr ⟨?_, ?_, bound, _, ⟨by simp, hbound, trivial⟩, bounds, rfl, rfl, hbounds,
          hhead⟩
        · simp only [Option.map_some, Option.getD_some, htext, List.cons_append, List.head?_cons,
            ne_eq, Option.some.injEq]
          rintro rfl
          exact absurd hc (by decide)
        · simp [htext]

/-- **A list of type parameters**, or no text at all.  The parameters in a list have bounds. -/
theorem reads_typeParams : Reads typeParams (Writes ParamSig.textList
    (fun params => ∀ param ∈ params, param.Valid)
    fun params rest => params = [] → rest.head? ≠ some '<') := by
  have hne : ∀ param : ParamSig, param.Valid → param.text ≠ [] := by
    intro param h
    simp [ParamSig.text]
  have hhead : ∀ {c}, isDelimiter c = true → ∀ (param : ParamSig) rest, param.Valid →
      (param.text ++ rest).head? ≠ some c := by
    intro c hc param rest h
    rw [ParamSig.text, List.append_assoc]
    exact h.name.head?_ne hc _
  have hwritten : ∀ cs param c mid, ParamBefore cs param (c :: mid) ↔
      Writes ParamSig.text ParamSig.Valid (fun _ rest => rest.head? ≠ some ':') cs param
        (c :: mid) := by
    intro cs param c mid
    constructor
    · rintro ⟨htext, hname, hbounds, hcolon, hend⟩
      exact ⟨htext, ⟨hname, fun h => absurd (hend h) (List.cons_ne_nil _ _), hbounds⟩, hcolon⟩
    · rintro ⟨htext, ⟨hname, hbounded, hbounds⟩, hcolon⟩
      exact ⟨htext, hname, hbounds, hcolon, fun h => absurd h hbounded⟩
  have hlist := Reads.repeatUntil_accept '>' reads_typeParam (fun _ _ _ h => h.length_lt) hwritten
    hne (fun param h => by simpa using hhead rfl param [] h) (fun _ _ _ => by simp)
    fun _ param tail _ h => hhead rfl param tail h
  refine ((reads_accept '<').bind fun _ => (hlist.nonempty .noTypeParams).ite
    (reads_pure [])).congr fun cs params rest => ?_
  constructor
  · rintro ⟨_, _, ⟨rfl, rfl⟩ | ⟨rfl, hmark, rfl⟩, h⟩
    · obtain ⟨⟨rfl, hvalid⟩, hsome⟩ := h
      obtain ⟨param, more, rfl⟩ := List.exists_cons_of_ne_nil hsome
      exact ⟨by simp [ParamSig.textList], hvalid, fun h => absurd h (List.cons_ne_nil _ _)⟩
    · obtain ⟨rfl, rfl⟩ := h
      exact ⟨rfl, by simp, fun _ => hmark⟩
  · rintro ⟨rfl, hvalid, hmark⟩
    cases params with
    | nil => exact ⟨false, _, Or.inr ⟨rfl, hmark rfl, rfl⟩, rfl, rfl⟩
    | cons param more =>
        exact ⟨true, _, Or.inl ⟨rfl, rfl⟩, ⟨by simp, hvalid⟩, List.cons_ne_nil _ _⟩

/-! ## Declarations -/

lemma reads_fieldDeclaration : Reads fieldDeclaration fun cs ty rest =>
    cs = ty.text ∧ ty.Valid maxOpenArguments ∧ rest = [] := by
  refine (reads_anyType.bind fun ty => reads_endOfText.bind fun _ => reads_pure ty).congr
    fun cs ty rest => ?_
  constructor
  · rintro ⟨ty, _, ⟨rfl, hvalid, -⟩, _, _, ⟨rfl, rfl⟩, rfl, rfl⟩
    exact ⟨List.append_nil _, hvalid, rfl⟩
  · rintro ⟨rfl, hvalid, rfl⟩
    exact ⟨ty, [], ⟨(List.append_nil _).symm, hvalid, trivial⟩, (), [], ⟨rfl, rfl⟩, rfl, rfl⟩

lemma reads_classDeclaration : Reads classDeclaration fun cs sig rest =>
    cs = sig.text ∧ sig.Valid ∧ rest = [] := by
  have hinterfaces := Reads.repeatUntil_atEnd reads_classType
    (fun sig _ => classType_text_ne_nil sig) (fun _ _ => trivial) fun _ _ _ _ _ => trivial
  refine (reads_typeParams.bind fun params => reads_classType.bind fun superclass =>
    hinterfaces.bind fun interfaces => reads_pure (ClassSig.mk params superclass interfaces)).congr
    fun cs sig rest => ?_
  constructor
  · rintro ⟨params, _, ⟨rfl, hparams, -⟩, superclass, _, ⟨rfl, hsuper, -⟩, interfaces, _,
      ⟨rfl, hparents, rfl⟩, rfl, rfl⟩
    exact ⟨rfl, ⟨hparams, hsuper, hparents⟩, rfl⟩
  · obtain ⟨params, superclass, interfaces⟩ := sig
    rintro ⟨rfl, ⟨hparams, hsuper, hparents⟩, rfl⟩
    refine ⟨params, _, ⟨rfl, hparams, fun _ => ?_⟩, superclass, _, ⟨rfl, hsuper, trivial⟩,
      interfaces, [], ⟨rfl, hparents, rfl⟩, rfl, rfl⟩
    obtain ⟨package, segments⟩ := superclass
    simp [ClassTypeSig.text]

/-- What may be thrown is told by its first character, as any named type is. -/
lemma reads_thrown : Reads thrown (NamedTypes maxOpenArguments) := by
  refine (Reads.byNext (G := fun next cs ty rest =>
    next ≠ some 'T' ∧ (∃ sig, ClassTypes maxOpenArguments cs sig rest ∧ ty = .cls sig) ∨
    next = some 'T' ∧ ∃ name, ty = .var name ∧ cs = ty.text ++ rest ∧ IsIdentifier name)
    fun next => ?_).congr fun cs ty rest => ?_
  · split
    · exact reads_typeVar.congr (by simp)
    · rename_i hnext
      have hnext : next ≠ some 'T' := hnext
      exact (reads_classOf reads_classType).congr (by simp [hnext])
  · rw [writes_isNamed_iff]
    refine or_congr_left (and_congr_left ?_)
    rintro ⟨⟨package, segments⟩, ⟨rfl, -, -⟩, -⟩
    simp [ClassTypeSig.text]

/-- A method whose parameters and result are known, read on from what it throws. -/
abbrev Throws (params : List ParamSig) (parameters : List TypeSig) (result : Option TypeSig) :
    Meaning MethodSig :=
  fun cs sig rest => ∃ throws, sig = ⟨params, parameters, result, throws⟩ ∧
    cs = throws.flatMap (fun ty => '^' :: ty.text) ∧
    (∀ ty ∈ throws, ty.isNamed = true ∧ ty.Valid maxOpenArguments) ∧ rest = []

lemma reads_throws (params : List ParamSig) (parameters : List TypeSig) (result : Option TypeSig) :
    Reads (do
      let throws ← whileNext '^' thrown
      endOfText
      return ({ params, parameters, result, throws } : MethodSig))
      (Throws params parameters result) := by
  have hthrows := Reads.whileNext '^' reads_thrown (fun ty _ => text_ne_nil ty)
    fun _ _ _ => trivial
  refine (hthrows.bind fun throws => reads_endOfText.bind fun _ => reads_pure _).congr
    fun cs sig rest => ?_
  constructor
  · rintro ⟨throws, _, ⟨rfl, hvalid, -⟩, _, _, ⟨rfl, rfl⟩, rfl, rfl⟩
    exact ⟨throws, rfl, List.append_nil _, hvalid, rfl⟩
  · rintro ⟨throws, rfl, rfl, hvalid, rfl⟩
    exact ⟨throws, [], ⟨(List.append_nil _).symm, hvalid, by simp, fun _ _ => trivial⟩, (), [],
      ⟨rfl, rfl⟩, rfl, rfl⟩

lemma text_head?_ne (ty : TypeSig) {c : Char} (hc : Primitive.ofLetter? c = none)
    (hreference : c ∉ ['L', 'T', '[']) (rest : List Char) : (ty.text ++ rest).head? ≠ some c := by
  cases h : ty.isReference with
  | true =>
      obtain ⟨d, tail, htext, hd⟩ := exists_text_of_isReference h
      rw [htext, List.cons_append, List.head?_cons, ne_eq, Option.some.injEq]
      rintro rfl
      exact hreference hd
  | false =>
      cases ty with
      | base p =>
          rw [TypeSig.text, List.singleton_append, List.head?_cons, ne_eq, Option.some.injEq]
          rintro rfl
          rw [Primitive.ofLetter?_eq_some_iff.mpr rfl] at hc
          exact absurd hc (Option.some_ne_none p)
      | _ => simp [TypeSig.isReference] at h

lemma reads_methodDeclaration : Reads methodDeclaration fun cs sig rest =>
    cs = sig.text ∧ sig.Valid ∧ rest = [] := by
  have hparameters := Reads.repeatUntil_accept ')' reads_anyType
    (fun cs ty mid => Writes.length_lt fun ty _ => text_ne_nil ty) (fun _ _ _ _ => Iff.rfl)
    (fun ty _ => text_ne_nil ty)
    (fun ty _ => by simpa using text_head?_ne ty (c := ')') rfl (by decide) [])
    (fun _ _ _ => trivial) fun _ _ _ _ _ => trivial
  refine (reads_typeParams.bind fun params => (reads_expect '(' .expectedParameters).bind fun _ =>
    hparameters.bind fun parameters => (reads_accept 'V').bind fun _ =>
    ((reads_pure none).bind (reads_throws params parameters)).ite
      ((reads_anyType.map some).bind (reads_throws params parameters))).congr fun cs sig rest => ?_
  constructor
  · rintro ⟨params, _, ⟨rfl, hparams, -⟩, _, _, rfl, parameters, _, ⟨rfl, hall⟩, _, _,
      ⟨rfl, rfl⟩ | ⟨rfl, -, rfl⟩, h⟩
    · obtain ⟨_, _, ⟨rfl, rfl⟩, throws, rfl, rfl, hthrows, rfl⟩ := h
      exact ⟨by simp [MethodSig.text], ⟨hparams, hall, by simp, hthrows⟩, rfl⟩
    · obtain ⟨_, _, ⟨ty, ⟨rfl, hvalid, -⟩, rfl⟩, throws, rfl, rfl, hthrows, rfl⟩ := h
      exact ⟨by simp [MethodSig.text], ⟨hparams, hall, by simpa using hvalid, hthrows⟩, rfl⟩
  · obtain ⟨params, parameters, result, throws⟩ := sig
    rintro ⟨rfl, ⟨hparams, hall, hresult, hthrows⟩, rfl⟩
    refine ⟨params, _, ⟨rfl, hparams, fun _ => by simp⟩, (), _, rfl, parameters, _, ⟨rfl, hall⟩, ?_⟩
    cases result with
    | none =>
        exact ⟨true, _, Or.inl ⟨rfl, rfl⟩, none, _, ⟨rfl, rfl⟩, throws, rfl, rfl, hthrows, rfl⟩
    | some ty =>
        exact ⟨false, _, Or.inr ⟨rfl, text_head?_ne ty rfl (by decide) _, rfl⟩, some ty, _,
          ⟨ty, ⟨rfl, hresult ty rfl, trivial⟩, rfl⟩, throws, rfl, rfl, hthrows, rfl⟩

/-! ## Whole texts -/

lemma parse_eq_ok_iff {α : Type} {reader : Reader α} {written : α → List Char} {valid : α → Prop}
    (hreader : Reads reader fun cs a rest => cs = written a ∧ valid a ∧ rest = []) (text : String)
    (a : α) : reader.read text = .ok a ↔ text = String.ofList (written a) ∧ valid a := by
  rw [hreader.read_eq_ok_iff]
  constructor
  · rintro ⟨rest, htext, hvalid, -⟩
    exact ⟨by rw [← htext, String.ofList_toList], hvalid⟩
  · rintro ⟨rfl, hvalid⟩
    exact ⟨[], String.toList_ofList, hvalid, rfl⟩

/--
  **The parsers accept their grammar and lose nothing.**

  For every text and every tree: the parser returns the tree exactly if the text is how the tree is
  written and the tree is valid.
-/
theorem parse_iff :
    (∀ (text : String) (ty : TypeSig),
      TypeSig.parse text = .ok ty ↔ text = ty.render ∧ ty.Valid maxOpenArguments) ∧
    (∀ (text : String) (sig : ClassSig),
      ClassSig.parse text = .ok sig ↔ text = sig.render ∧ sig.Valid) ∧
    ∀ (text : String) (sig : MethodSig),
      MethodSig.parse text = .ok sig ↔ text = sig.render ∧ sig.Valid :=
  ⟨parse_eq_ok_iff reads_fieldDeclaration, parse_eq_ok_iff reads_classDeclaration,
    parse_eq_ok_iff reads_methodDeclaration⟩

example : TypeSig.parse "[LMap<TK;*>.Entry;" = .ok (.array (.cls (.mk []
    [.mk "Map" [.exactly (.var "K"), .any], .mk "Entry" []]))) := by
  rfl

-- A type parameter without any bound has its colon, but no place in a list.
example : (ClassSig.parse "<T:>LC;").toOption.isNone = true := by
  rfl

end Signature

end JavaGenerics
