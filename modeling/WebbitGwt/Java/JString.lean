import WebbitGwt.Java.Basic

/-!
# Strings

A well-formed string is a sequence of Unicode characters.  Its length counts UTF-16
units, and its UTF-8 encoding counts bytes; the two agree on ASCII only.
-/

namespace WebbitGwt.Java

/-- The UTF-16 units of a character: two outside the basic plane. -/
def utf16Units (character : Char) : Nat :=
  if character.toNat < 0x10000 then 1 else 2

/-- A string, short enough for its length to be an `int`. -/
structure JString where
  text : String
  length_lt : (text.toList.map utf16Units).sum < 2 ^ 31
  deriving DecidableEq

namespace JString

/-- `length()` -/
def length (string : JString) : Nat :=
  (string.text.toList.map utf16Units).sum

/-- The UTF-8 bytes. -/
def utf8 (string : JString) : List JByte :=
  (string.text.toList.flatMap String.utf8EncodeChar).map UInt8.toBitVec

def IsAscii (string : JString) : Prop :=
  ∀ character ∈ string.text.toList, character.toNat < 0x80

-- Named, since the search may find an instance that tries all characters there are.
instance (string : JString) : Decidable string.IsAscii :=
  List.decidableBAll (fun character : Char => character.toNat < 0x80) string.text.toList

theorem length_lt_two_pow (string : JString) : string.length < 2 ^ 31 :=
  string.length_lt

theorem length_utf8 (string : JString) :
    string.utf8.length = (string.text.toList.map Char.utf8Size).sum := by
  rw [utf8, List.length_map, List.length_flatMap]
  simp

theorem utf8Size_of_ascii {character : Char} (ascii : character.toNat < 0x80) :
    character.utf8Size = utf16Units character := by
  have size : character.utf8Size = 1 := by
    rw [Char.utf8Size_eq_one_iff, UInt32.le_iff_toNat_le]
    exact Nat.le_of_lt_succ ascii
  rw [size, utf16Units, if_pos (by omega)]

theorem utf16Units_lt_utf8Size {character : Char} (notAscii : ¬character.toNat < 0x80) :
    utf16Units character < character.utf8Size := by
  have notOne : character.utf8Size ≠ 1 := by
    rw [ne_eq, Char.utf8Size_eq_one_iff, UInt32.le_iff_toNat_le]
    exact fun small => notAscii (Nat.lt_succ_of_le small)
  have pos := character.utf8Size_pos
  unfold utf16Units
  split
  · omega
  · rename_i large
    have four : character.utf8Size = 4 := by
      rw [Char.utf8Size_eq_four_iff, UInt32.lt_iff_toNat_lt]
      exact Nat.lt_of_succ_le (Nat.le_of_not_lt large)
    omega

/-- A text has as many bytes as units if it is ASCII, and more otherwise. -/
theorem sum_utf16Units (characters : List Char) :
    (characters.map utf16Units).sum ≤ (characters.map Char.utf8Size).sum ∧
      ((characters.map utf16Units).sum = (characters.map Char.utf8Size).sum ↔
        ∀ character ∈ characters, character.toNat < 0x80) := by
  induction characters with
  | nil => simp
  | cons character characters ih =>
      rcases ih with ⟨le, eq_iff⟩
      simp only [List.map_cons, List.sum_cons, List.forall_mem_cons, ← eq_iff]
      by_cases ascii : character.toNat < 0x80
      · have same := utf8Size_of_ascii ascii
        omega
      · have fewer := utf16Units_lt_utf8Size ascii
        omega

theorem length_le_length_utf8 (string : JString) : string.length ≤ string.utf8.length := by
  rw [length_utf8]
  exact (sum_utf16Units _).1

/-- Counting units and counting bytes agree on ASCII only. -/
theorem length_eq_length_utf8_iff (string : JString) :
    string.length = string.utf8.length ↔ string.IsAscii := by
  rw [length_utf8]
  exact (sum_utf16Units _).2

end JString

/-- `new String(bytes)`.  What becomes of bytes that are not UTF-8 is left open, except
that the beginning of a string, cut short, is not taken for the whole. -/
structure Utf8Decoder where
  decode : List JByte → Option JString
  decode_utf8 : ∀ string, decode string.utf8 = some string
  eq_utf8_of_prefix : ∀ bytes string, bytes <+: string.utf8 → decode bytes = some string →
    bytes = string.utf8

/-- Decoding that fails on whatever is not UTF-8. -/
def decodeStrict (bytes : List JByte) : Option JString := do
  let text ← String.fromUTF8? (bytes.map UInt8.ofBitVec).toByteArray
  if length_lt : (text.toList.map utf16Units).sum < 2 ^ 31 then
    return { text, length_lt }
  else
    none

theorem fromUTF8?_eq_some_iff {bytes : ByteArray} {text : String} :
    String.fromUTF8? bytes = some text ↔ bytes = text.toByteArray := by
  unfold String.fromUTF8?
  split
  · rename_i valid
    rw [Option.some.injEq, ← String.toByteArray_inj]
    exact Iff.rfl
  · rename_i invalid
    constructor
    · exact nofun
    · rintro rfl
      exact absurd text.isValidUTF8 invalid

theorem toByteArray_eq_iff {bytes : List JByte} {text : String} :
    (bytes.map UInt8.ofBitVec).toByteArray = text.toByteArray ↔
      bytes = (text.toList.flatMap String.utf8EncodeChar).map UInt8.toBitVec := by
  rw [← String.utf8Encode_toList, List.utf8Encode]
  constructor
  · intro same
    have lists := congrArg (fun array => array.data.toList.map UInt8.toBitVec) same
    simpa [Function.comp_def] using lists
  · rintro rfl
    simp [Function.comp_def]

theorem decodeStrict_eq_some_iff {bytes : List JByte} {string : JString} :
    decodeStrict bytes = some string ↔ bytes = string.utf8 := by
  have text_iff := @toByteArray_eq_iff bytes
  rw [decodeStrict, Option.bind_eq_bind, Option.bind_eq_some_iff]
  constructor
  · rintro ⟨text, decoded, bounded⟩
    split at bounded
    · cases bounded
      exact text_iff.mp (fromUTF8?_eq_some_iff.mp decoded)
    · cases bounded
  · intro same
    refine ⟨string.text, fromUTF8?_eq_some_iff.mpr (text_iff.mpr same), ?_⟩
    rw [dif_pos string.length_lt]
    rfl

def Utf8Decoder.strict : Utf8Decoder where
  decode := decodeStrict
  decode_utf8 _ := decodeStrict_eq_some_iff.mpr rfl
  eq_utf8_of_prefix _ _ _ := decodeStrict_eq_some_iff.mp

end WebbitGwt.Java
