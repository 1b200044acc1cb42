import Mathlib.Tactic.Common
import Mathlib.Data.List.TakeWhile
import JavaGenerics.Signature.Reader

/-!
# Positions in a text, counted in bytes

Whoever keeps a text as UTF-8 counts bytes, and may cut the text only where one character ends and
another begins.

* `textFrom?`, `textUpTo?` — the two sides of a cut, if it can be made.
* `bytesBefore`, `leadingBytes` — how far it is to a character of some kind, and for how long a byte
  recurs.

What these find is what a reader of characters finds: **the length in bytes of some characters is a
position at which a text that starts with them can be cut** (`textFrom?_append`), and a byte below
128 is a character of its own wherever it stands (`eq_of_head?_utf8EncodeChar`).
-/

namespace JavaGenerics

/-! ## Cuts -/

/-- The text from a position on, if a character starts there or the text ends. -/
def textFrom? (text : String) (position : Nat) : Option String :=
  if h : String.Pos.Raw.IsValid text ⟨position⟩ then
    some (text.sliceFrom (text.pos ⟨position⟩ h)).copy
  else none

/-- The text up to a position, if a character starts there or the text ends. -/
def textUpTo? (text : String) (position : Nat) : Option String :=
  if h : String.Pos.Raw.IsValid text ⟨position⟩ then
    some (text.sliceTo (text.pos ⟨position⟩ h)).copy
  else none

lemma isValid_append (before after : String) :
    String.Pos.Raw.IsValid (before ++ after) ⟨before.utf8ByteSize⟩ :=
  String.Pos.Raw.isValid_iff_exists_append.mpr ⟨before, after, rfl, rfl⟩

lemma splits_append (before after : String) :
    ((before ++ after).pos ⟨before.utf8ByteSize⟩ (isValid_append before after)).Splits
      before after :=
  ⟨rfl, rfl⟩

lemma textFrom?_append (before after : String) :
    textFrom? (before ++ after) before.utf8ByteSize = some after := by
  rw [textFrom?, dif_pos (isValid_append before after), Option.some.injEq]
  exact (String.Pos.splits _).eq_right (splits_append before after)

lemma textUpTo?_append (before after : String) :
    textUpTo? (before ++ after) before.utf8ByteSize = some before := by
  rw [textUpTo?, dif_pos (isValid_append before after), Option.some.injEq]
  exact (String.Pos.splits _).eq_left (splits_append before after)

/-! ## Lengths -/

lemma utf8Length_append (cs ds : List Char) :
    utf8Length (cs ++ ds) = utf8Length cs + utf8Length ds := by
  induction cs with
  | nil => simp [utf8Length]
  | cons c cs ih => simp [utf8Length, ih, Nat.add_assoc]

lemma utf8Length_eq (cs : List Char) : utf8Length cs = (String.ofList cs).utf8ByteSize := by
  induction cs with
  | nil => simp [utf8Length]
  | cons c cs ih =>
      rw [utf8Length, ih, String.ofList_cons, String.utf8ByteSize_append,
        String.utf8ByteSize_singleton]

lemma length_le_utf8Length (cs : List Char) : cs.length ≤ utf8Length cs := by
  induction cs with
  | nil => simp [utf8Length]
  | cons c cs ih =>
      have := c.utf8Size_pos
      simp only [utf8Length, List.length_cons]
      omega

/-! ## Searches -/

/-- How many bytes come before the first character with the property, or in all. -/
def bytesBefore (stop : Char → Bool) (text : String) : Nat :=
  match text.find? stop with
  | some found => found.offset.byteIdx
  | none => text.utf8ByteSize

lemma bytesBefore_eq (stop : Char → Bool) (text : String) :
    bytesBefore stop text = utf8Length (text.toList.takeWhile fun c => !stop c) := by
  rw [bytesBefore]
  split
  · rename_i found hfound
    obtain ⟨before, c, after, ⟨htext, hoffset⟩, hc, hbefore⟩ :=
      String.find?_bool_eq_some_iff_splits.mp hfound
    have hall : ∀ d ∈ before.toList, (!stop d) = true := fun d hd => by simp [hbefore d hd]
    have htake : (text.toList.takeWhile fun c => !stop c) = before.toList := by
      rw [htext, String.toList_append, List.takeWhile_append_of_pos hall]
      simp [hc]
    rw [htake, utf8Length_eq, String.ofList_toList, hoffset, String.byteIdx_rawEndPos]
  · rename_i hnone
    rw [String.find?_eq_find?_toSlice, Option.map_eq_none_iff, String.Slice.find?_eq_none_iff,
      String.Slice.contains_bool_eq, String.copy_toSlice, List.any_eq_false] at hnone
    have htake : (text.toList.takeWhile fun c => !stop c) = text.toList :=
      List.takeWhile_eq_self_iff.mpr fun d hd => by simpa using hnone d hd
    rw [htake, utf8Length_eq, String.ofList_toList]

/-- How many times in a row a byte comes first. -/
def leadingBytes (byte : UInt8) (text : String) : Nat :=
  (text.toByteArray.data.toList.takeWhile (· == byte)).length

lemma utf8EncodeChar_of_size_one {c : Char} (hc : c.utf8Size = 1) :
    String.utf8EncodeChar c = [c.toUInt8] :=
  String.utf8EncodeChar_eq_singleton hc

/-- A character that takes one byte is not the start of another character. -/
lemma eq_of_head?_utf8EncodeChar {c d : Char} (hc : c.utf8Size = 1)
    (h : (String.utf8EncodeChar d).head? = some c.toUInt8) : d = c := by
  obtain ⟨tail, htail⟩ := List.head?_eq_some_iff.mp h
  have hbytes : [c].utf8Encode ++ tail.toByteArray = [d].utf8Encode := by
    rw [List.utf8Encode_singleton, List.utf8Encode_singleton, htail,
      utf8EncodeChar_of_size_one hc, ← List.toByteArray_append, List.singleton_append]
  simpa [eq_comm] using List.isPrefix_of_utf8Encode_append_eq_utf8Encode _ hbytes

lemma takeWhile_utf8Encode {c : Char} (hc : c.utf8Size = 1) (cs : List Char) :
    ((cs.flatMap String.utf8EncodeChar).takeWhile (· == c.toUInt8)).length =
      (cs.takeWhile (· == c)).length := by
  induction cs with
  | nil => rfl
  | cons d cs ih =>
      by_cases hd : d = c
      · subst hd
        simp [utf8EncodeChar_of_size_one hc, ih]
      · have hhead : (String.utf8EncodeChar d).head? ≠ some c.toUInt8 :=
          fun h => hd (eq_of_head?_utf8EncodeChar hc h)
        cases hbytes : String.utf8EncodeChar d with
        | nil =>
            have hlength := String.length_utf8EncodeChar d
            have := d.utf8Size_pos
            simp [hbytes] at hlength
            omega
        | cons byte tail =>
            have hbyte : byte ≠ c.toUInt8 := by simpa [hbytes] using hhead
            simp [hbytes, hbyte, hd]

/-- A byte that is a character of its own recurs for as long as the character does. -/
lemma leadingBytes_eq {c : Char} (hc : c.utf8Size = 1) (text : String) :
    leadingBytes c.toUInt8 text = (text.toList.takeWhile (· == c)).length := by
  obtain ⟨cs, rfl⟩ := text.exists_eq_ofList
  rw [leadingBytes, String.toByteArray_ofList, String.toList_ofList, List.utf8Encode,
    List.data_toByteArray, ← takeWhile_utf8Encode hc]

end JavaGenerics
