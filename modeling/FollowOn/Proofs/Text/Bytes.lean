import Mathlib.Data.String.Basic
import Mathlib.Order.Compare

namespace FollowOn

/-!
# Texts as bytes

A text is kept as the bytes of its characters, one to four for each. The bytes
determine the text, and they keep its order: comparing two texts character by
character and comparing them byte by byte comes to the same.
-/

section Loop

/-- The loop lists the bytes from its place on, behind those seen. -/
theorem byteArray_toList_loop
    (bytes : ByteArray)
    (place : Nat)
    (seen : List UInt8) :
    ByteArray.toList.loop bytes place seen =
      seen.reverse ++ bytes.data.toList.drop place := by
  induction place, seen using ByteArray.toList.loop.induct bytes with
  | case1 place seen inside inductionHypothesis =>
      have bounded : place < bytes.data.toList.length := by
        simpa using inside
      have isNext : bytes.get! place = bytes.data.toList[place] :=
        getElem!_pos bytes.data place inside
      rw [ByteArray.toList.loop, if_pos inside, inductionHypothesis,
        List.drop_eq_getElem_cons bounded, isNext]
      simp
  | case2 place seen outside =>
      have ended : bytes.data.toList.length ≤ place := by
        simpa using outside
      rw [ByteArray.toList.loop, if_neg outside,
        List.drop_eq_nil_of_le ended, List.append_nil]

/-- Bytes are listed as they are stored. -/
theorem byteArray_toList_eq
    (bytes : ByteArray) :
    bytes.toList = bytes.data.toList := by
  rw [ByteArray.toList, byteArray_toList_loop]
  rfl

end Loop

/-- The bytes of a text determine it. -/
theorem toUTF8_toList_inj
    {first second : String} :
    first.toUTF8.toList = second.toUTF8.toList ↔ first = second := by
  rw [byteArray_toList_eq, byteArray_toList_eq, Array.toList_inj,
    ← ByteArray.ext_iff]
  exact String.toByteArray_inj

/-- The bytes of a text are those of its characters. -/
theorem toUTF8_toList_eq
    (text : String) :
    text.toUTF8.toList =
      text.toList.flatMap String.utf8EncodeChar := by
  have encoded : text.toList.utf8Encode = text.toUTF8 :=
    String.utf8Encode_toList
  rw [byteArray_toList_eq, ← encoded, List.utf8Encode,
    List.data_toByteArray]

section Order

variable
    {rest others : List UInt8}

/-- Bytes are compared as the numbers that they hold, the first difference deciding. -/
theorem byte_cons_lt_iff
    {number other : Nat}
    (isByte : number < 256)
    (otherIsByte : other < 256) :
    UInt8.ofNat number :: rest < UInt8.ofNat other :: others ↔
      number < other ∨ number = other ∧ rest < others := by
  rw [List.cons_lt_cons_iff, UInt8.lt_iff_toNat_lt, ← UInt8.toNat_inj,
    UInt8.toNat_ofNat', UInt8.toNat_ofNat', Nat.mod_eq_of_lt isByte,
    Nat.mod_eq_of_lt otherIsByte]

/-- Code points end at `0x10ffff`. -/
theorem toNat_lt_of_char (character : Char) :
    character.toNat < 1114112 := by
  rcases character.valid with low | ⟨-, high⟩
  · exact Nat.lt_trans low (by decide)
  · exact high

/-- The bytes of a lesser character come first, whatever follows. -/
theorem encodeChar_append_lt
    {left right : Char}
    (less : left < right)
    (rest others : List UInt8) :
    String.utf8EncodeChar left ++ rest <
      String.utf8EncodeChar right ++ others := by
  have lessNumber : left.toNat < right.toNat := less
  have bounded := toNat_lt_of_char right
  -- All digits in terms of one division, so that they can be compared.
  have third (number : Nat) : number / 4096 = number / 64 / 64 := by
    omega
  have fourth (number : Nat) :
      number / 262144 = number / 64 / 64 / 64 := by
    omega
  simp only [String.utf8EncodeChar, Char.toNat_val, third, fourth]
  -- One case for each number of bytes on either side; a lesser character has no more.
  split_ifs <;> try omega
  all_goals
    simp only [List.cons_append, List.nil_append]
    simp (disch := omega) only [byte_cons_lt_iff]
    omega

/-- The order of texts by code points is that of their bytes. -/
theorem flatMap_encodeChar_lt
    {left right : List Char}
    (less : left < right) :
    left.flatMap String.utf8EncodeChar <
      right.flatMap String.utf8EncodeChar := by
  rw [← List.lex_lt] at less
  induction less with
  | @nil first rest =>
      obtain ⟨byte, bytes, shape⟩ :=
        List.exists_cons_of_ne_nil
          (String.utf8EncodeChar_ne_nil (c := first))
      rw [List.flatMap_nil, List.flatMap_cons, shape]
      exact List.nil_lt_cons byte _
  | rel lessFirst =>
      rw [List.flatMap_cons, List.flatMap_cons]
      exact encodeChar_append_lt lessFirst _ _
  | cons _ inductionHypothesis =>
      rw [List.flatMap_cons, List.flatMap_cons]
      exact List.append_left_lt inductionHypothesis

/-- Texts are ordered as their bytes are. -/
theorem toUTF8_toList_lt_iff
    {left right : String} :
    left.toUTF8.toList < right.toUTF8.toList ↔ left < right := by
  have keepsOrder
      {lesser greater : String}
      (less : lesser < greater) :
      lesser.toUTF8.toList < greater.toUTF8.toList := by
    rw [toUTF8_toList_eq, toUTF8_toList_eq]
    exact flatMap_encodeChar_lt (String.lt_iff_toList_lt.mp less)
  refine ⟨?_, keepsOrder⟩
  intro bytesLess
  rcases lt_trichotomy left right with less | same | greater
  · exact less
  · rw [same] at bytesLess
    exact (List.lt_irrefl _ bytesLess).elim
  · exact (List.lt_asymm bytesLess (keepsOrder greater)).elim

end Order

end FollowOn
