import Mathlib.Tactic.Ring
import WebbitGwt.Java.JString
import WebbitGwt.Nio.Bytes

/-!
# Strings as bytes

The string helpers of pako.  `string2buf` goes through a string twice, once to count bytes
and once to write them; `buf2string` reads them back; `utf8border` says how much of a
buffer can be read when the rest of the last character has not arrived.  Strings are
sequences of UTF-16 units, and a surrogate need not have its other half.
-/

namespace WebbitGwt.Pako

open WebbitGwt.Java
open WebbitGwt.Nio

/-- A string of the host language: its UTF-16 units. -/
abbrev JsString := List JChar

/-! ## From strings to bytes -/

/-- `(c & 0xfc00) === 0xd800` -/
def isHigh (unit : JChar) : Bool :=
  unit.toNat &&& 0xfc00 == 0xd800

/-- `(c2 & 0xfc00) === 0xdc00` -/
def isLow (unit : JChar) : Bool :=
  unit.toNat &&& 0xfc00 == 0xdc00

/-- The code point of a surrogate pair. -/
def joinPair (high low : JChar) : Nat :=
  0x10000 + ((high.toNat - 0xd800) <<< 10) + (low.toNat - 0xdc00)

/-- The number of bytes of a code point. -/
def byteCount (c : Nat) : Nat :=
  if c < 0x80 then 1 else if c < 0x800 then 2 else if c < 0x10000 then 3 else 4

/-- The loop that counts bytes. -/
def bufLen : JsString → Nat
  | [] => 0
  | [unit] => byteCount unit.toNat
  | unit :: next :: units =>
      if isHigh unit && isLow next then
        byteCount (joinPair unit next) + bufLen units
      else
        byteCount unit.toNat + bufLen (next :: units)

/-- What is stored in an array of bytes. -/
def toByte (value : Nat) : Byte :=
  BitVec.ofNat 8 value

/-- The bytes that are written for a code point. -/
def encode (c : Nat) : List Byte :=
  if c < 0x80 then
    [toByte c]
  else if c < 0x800 then
    [toByte (0xC0 ||| c >>> 6), toByte (0x80 ||| (c &&& 0x3f))]
  else if c < 0x10000 then
    [toByte (0xE0 ||| c >>> 12), toByte (0x80 ||| (c >>> 6 &&& 0x3f)),
      toByte (0x80 ||| (c &&& 0x3f))]
  else
    [toByte (0xf0 ||| c >>> 18), toByte (0x80 ||| (c >>> 12 &&& 0x3f)),
      toByte (0x80 ||| (c >>> 6 &&& 0x3f)), toByte (0x80 ||| (c &&& 0x3f))]

/-- The loop that writes bytes, as long as `i < buf_len`.  It would fail if it got to the end
of the string before. -/
def fill (buf_len : Nat) : Nat → JsString → Option (List Byte)
  | i, [] => if i < buf_len then none else some []
  | i, [unit] =>
      if i < buf_len then
        let bytes := encode unit.toNat
        if i + bytes.length < buf_len then none else some bytes
      else
        some []
  | i, unit :: next :: units =>
      if i < buf_len then
        if isHigh unit && isLow next then
          let bytes := encode (joinPair unit next)
          (fill buf_len (i + bytes.length) units).map (bytes ++ ·)
        else
          let bytes := encode unit.toNat
          (fill buf_len (i + bytes.length) (next :: units)).map (bytes ++ ·)
      else
        some []

/-- `string2buf` -/
def string2buf (str : JsString) : Option (List Byte) :=
  fill (bufLen str) 0 str

/-! ## From bytes to strings -/

/-- The table of the lengths of sequences, by their first byte. -/
def utf8len (q : Nat) : Nat :=
  if q = 254 then 1
  else if q ≥ 252 then 6
  else if q ≥ 248 then 5
  else if q ≥ 240 then 4
  else if q ≥ 224 then 3
  else if q ≥ 192 then 2
  else 1

/-- The inner loop: join the rest of a sequence, as far as it is there. -/
def joinRest : Nat → Nat → List Byte → Nat × Nat × List Byte
  | c, c_len, [] => (c, c_len, [])
  | c, c_len, byte :: bytes =>
      if c_len > 1 then
        joinRest (c <<< 6 ||| (byte.toNat &&& 0x3f)) (c_len - 1) bytes
      else
        (c, c_len, byte :: bytes)

/-- The units of a code point. -/
def utf16 (c : Nat) : JsString :=
  if c < 0x10000 then
    [BitVec.ofNat 16 c]
  else
    [BitVec.ofNat 16 (0xd800 ||| ((c - 0x10000) >>> 10 &&& 0x3ff)),
      BitVec.ofNat 16 (0xdc00 ||| (c - 0x10000 &&& 0x3ff))]

/-- The outer loop.  It takes a byte at least each time it goes round. -/
def readUnits : Nat → List Byte → JsString
  | 0, _ => []
  | _ + 1, [] => []
  | fuel + 1, byte :: bytes =>
      let c := byte.toNat
      if c < 0x80 then
        BitVec.ofNat 16 c :: readUnits fuel bytes
      else
        let c_len := utf8len c
        if c_len > 4 then
          0xfffd :: readUnits fuel (bytes.drop (c_len - 1))
        else
          let c := c &&& (if c_len = 2 then 0x1f else if c_len = 3 then 0x0f else 0x07)
          let (c, c_len, bytes) := joinRest c c_len bytes
          if c_len > 1 then
            0xfffd :: readUnits fuel bytes
          else
            utf16 c ++ readUnits fuel bytes

/-- `buf2string`.  A limit of zero is taken for none; others stay within the buffer. -/
def buf2string (buf : List Byte) (max : Nat) : JsString :=
  let len := if max = 0 then buf.length else max
  readUnits (buf.take len).length (buf.take len)

/-- The loop of `utf8border`: from a position back to the start of a sequence. -/
def sequenceStart (buf : List Byte) : Nat → Option Nat
  | 0 => none
  | pos + 1 =>
      if (buf.getD pos 0).toNat &&& 0xC0 = 0x80 then sequenceStart buf pos else some pos

/-- `utf8border` -/
def utf8border (buf : List Byte) (max : Nat) : Nat :=
  let max := if max = 0 then buf.length else max
  let max := if max > buf.length then buf.length else max
  match sequenceStart buf max with
  | none => max
  | some 0 => max
  | some pos => if pos + utf8len (buf.getD pos 0).toNat > max then pos else max

/-! ## Bits as arithmetic -/

/-- Bits that do not overlap are added. -/
theorem or_eq_add {low : Nat} (bits : Nat) (small : low < 2 ^ bits) (high : Nat) :
    2 ^ bits * high ||| low = 2 ^ bits * high + low :=
  (Nat.two_pow_add_eq_or_of_lt small high).symm

theorem and_mask (value bits : Nat) : value &&& (2 ^ bits - 1) = value % 2 ^ bits :=
  Nat.and_two_pow_sub_one_eq_mod value bits

/-- The bits in the middle of a number. -/
theorem and_middle (value low high : Nat) :
    value &&& (2 ^ high - 1) * 2 ^ low = value / 2 ^ low % 2 ^ high * 2 ^ low := by
  have upper : (value &&& (2 ^ high - 1) * 2 ^ low) / 2 ^ low = value / 2 ^ low % 2 ^ high := by
    rw [← Nat.shiftRight_eq_div_pow, Nat.shiftRight_and_distrib, Nat.shiftRight_eq_div_pow,
      Nat.shiftRight_eq_div_pow, Nat.mul_div_cancel _ (Nat.two_pow_pos low), and_mask]
  have lower : (value &&& (2 ^ high - 1) * 2 ^ low) % 2 ^ low = 0 := by
    rw [Nat.and_mod_two_pow, Nat.mul_mod_left, Nat.and_zero]
  have whole := Nat.div_add_mod' (value &&& (2 ^ high - 1) * 2 ^ low) (2 ^ low)
  rw [upper, lower, Nat.add_zero] at whole
  exact whole.symm

/-- The upper bits of a number. -/
theorem and_upper {value low high : Nat} (bound : value < 2 ^ (low + high)) :
    value &&& (2 ^ high - 1) * 2 ^ low = value / 2 ^ low * 2 ^ low := by
  rw [and_middle, Nat.mod_eq_of_lt]
  rw [Nat.div_lt_iff_lt_mul (Nat.two_pow_pos low), ← Nat.pow_add, Nat.add_comm]
  exact bound

theorem and_0xfc00 (unit : JChar) : unit.toNat &&& 0xfc00 = unit.toNat / 1024 * 1024 :=
  @and_upper unit.toNat 10 6 unit.isLt

theorem isHigh_iff (unit : JChar) : isHigh unit ↔ 0xd800 ≤ unit.toNat ∧ unit.toNat < 0xdc00 := by
  rw [isHigh, and_0xfc00, beq_iff_eq]
  omega

theorem isLow_iff (unit : JChar) : isLow unit ↔ 0xdc00 ≤ unit.toNat ∧ unit.toNat < 0xe000 := by
  rw [isLow, and_0xfc00, beq_iff_eq]
  omega

theorem toNat_toByte {value : Nat} (small : value < 256) : (toByte value).toNat = value := by
  rw [toByte, BitVec.toNat_ofNat]
  exact Nat.mod_eq_of_lt small

/-- A continuation byte. -/
def continuation (value : Nat) : Byte :=
  toByte (0x80 + value % 64)

theorem toNat_continuation (value : Nat) : (continuation value).toNat = 0x80 + value % 64 :=
  toNat_toByte (by omega)

theorem toByte_or_0x80 (value : Nat) : toByte (0x80 ||| (value &&& 0x3f)) = continuation value := by
  have masked : value &&& 0x3f = value % 64 := Nat.and_two_pow_sub_one_eq_mod value 6
  have joined : 0x80 ||| value % 64 = 0x80 + value % 64 := or_eq_add 6 (by omega) 2
  rw [masked, joined]
  rfl

/-- The bytes of a code point, without bits. -/
theorem encode_eq {c : Nat} (bound : c < 0x110000) :
    encode c =
      if c < 0x80 then [toByte c]
      else if c < 0x800 then [toByte (0xC0 + c / 64), continuation c]
      else if c < 0x10000 then
        [toByte (0xE0 + c / 4096), continuation (c / 64), continuation c]
      else
        [toByte (0xf0 + c / 262144), continuation (c / 4096), continuation (c / 64),
          continuation c] := by
  simp only [encode, toByte_or_0x80, Nat.shiftRight_eq_div_pow]
  by_cases ascii : c < 0x80
  · rw [if_pos ascii, if_pos ascii]
  by_cases two : c < 0x800
  · have first : 0xC0 ||| c / 2 ^ 6 = 0xC0 + c / 64 := or_eq_add 6 (by omega) 3
    rw [if_neg ascii, if_neg ascii, if_pos two, if_pos two, first]
  by_cases three : c < 0x10000
  · have first : 0xE0 ||| c / 2 ^ 12 = 0xE0 + c / 4096 := or_eq_add 4 (by omega) 14
    rw [if_neg ascii, if_neg ascii, if_neg two, if_neg two, if_pos three, if_pos three, first]
  · have first : 0xf0 ||| c / 2 ^ 18 = 0xf0 + c / 262144 := or_eq_add 3 (by omega) 30
    rw [if_neg ascii, if_neg ascii, if_neg two, if_neg two, if_neg three, if_neg three, first]

theorem length_encode (c : Nat) : (encode c).length = byteCount c := by
  unfold encode byteCount
  split
  · rfl
  · split
    · rfl
    · split <;> rfl

theorem byteCount_pos (c : Nat) : 0 < byteCount c := by
  unfold byteCount
  split
  · omega
  · split
    · omega
    · split <;> omega

/-! ## What is written -/

/-- The code points of a string; a surrogate without its other half is one. -/
def codePoints : JsString → List Nat
  | [] => []
  | [unit] => [unit.toNat]
  | unit :: next :: units =>
      if isHigh unit && isLow next then
        joinPair unit next :: codePoints units
      else
        unit.toNat :: codePoints (next :: units)

theorem bufLen_eq (str : JsString) : bufLen str = ((codePoints str).map byteCount).sum := by
  fun_induction codePoints str with
  | case1 => rfl
  | case2 unit => simp [bufLen]
  | case3 unit next units paired ih => simp [bufLen, paired, ih]
  | case4 unit next units single ih => simp [bufLen, single, ih]

/-- The second loop writes everything if it has as many bytes left as there are. -/
theorem fill_eq (buf_len i : Nat) (str : JsString)
    (left : i + ((codePoints str).map byteCount).sum = buf_len) :
    fill buf_len i str = some ((codePoints str).flatMap encode) := by
  fun_induction codePoints str generalizing i with
  | case1 =>
      have done : ¬i < buf_len := by simp at left; omega
      rw [fill, if_neg done]
      rfl
  | case2 unit =>
      have pos := byteCount_pos unit.toNat
      simp only [List.map_cons, List.map_nil, List.sum_cons, List.sum_nil] at left
      have filled : ¬i + byteCount unit.toNat < buf_len := by omega
      rw [fill, if_pos (by omega)]
      simp only [length_encode, if_neg filled, List.flatMap_cons, List.flatMap_nil, List.append_nil]
  | case3 unit next units paired ih =>
      have pos := byteCount_pos (joinPair unit next)
      simp only [List.map_cons, List.sum_cons] at left
      have rest := ih (i + byteCount (joinPair unit next)) (by omega)
      rw [fill, if_pos (by omega), if_pos paired]
      simp only [length_encode, rest, Option.map_some, List.flatMap_cons]
  | case4 unit next units single ih =>
      have pos := byteCount_pos unit.toNat
      simp only [List.map_cons, List.sum_cons] at left
      have rest := ih (i + byteCount unit.toNat) (by omega)
      rw [fill, if_pos (by omega), if_neg single]
      simp only [length_encode, rest, Option.map_some, List.flatMap_cons]

/-- The buffer has the right size, and the second loop does not get past the end of the
string. -/
theorem string2buf_eq (str : JsString) :
    string2buf str = some ((codePoints str).flatMap encode) :=
  fill_eq _ 0 str (by rw [bufLen_eq, Nat.zero_add])

/-! ## What is read -/

theorem joinPair_eq (high low : JChar) :
    joinPair high low = 0x10000 + ((high.toNat - 0xd800) * 1024 + (low.toNat - 0xdc00)) := by
  have shifted : (high.toNat - 0xd800) <<< 10 = (high.toNat - 0xd800) * 1024 :=
    Nat.shiftLeft_eq _ 10
  unfold joinPair
  omega

theorem codePoints_lt (str : JsString) : ∀ c ∈ codePoints str, c < 0x110000 := by
  have small (unit : JChar) : unit.toNat < 0x110000 := by
    have bound := unit.isLt
    omega
  fun_induction codePoints str with
  | case1 => exact nofun
  | case2 unit => simpa using small unit
  | case3 unit next units paired ih =>
      rw [List.forall_mem_cons]
      refine ⟨?_, ih⟩
      rw [Bool.and_eq_true, isHigh_iff, isLow_iff] at paired
      rw [joinPair_eq]
      omega
  | case4 unit next units single ih =>
      rw [List.forall_mem_cons]
      exact ⟨small unit, ih⟩

/-- A unit that is no pair is its own code point. -/
theorem utf16_unit (unit : JChar) : utf16 unit.toNat = [unit] := by
  have bound : unit.toNat < 0x10000 := by
    have bound := unit.isLt
    omega
  rw [utf16, if_pos bound, BitVec.ofNat_toNat, BitVec.setWidth_eq]

/-- A code point outside the basic plane has two units. -/
theorem utf16_pair {c : Nat} (beyond : 0x10000 ≤ c) (bound : c < 0x110000) :
    utf16 c =
      [BitVec.ofNat 16 (0xd800 + (c - 0x10000) / 1024),
        BitVec.ofNat 16 (0xdc00 + (c - 0x10000) % 1024)] := by
  have upper : (c - 0x10000) >>> 10 &&& 0x3ff = (c - 0x10000) / 1024 := by
    have masked : (c - 0x10000) >>> 10 &&& 0x3ff = (c - 0x10000) >>> 10 % 1024 := and_mask _ 10
    rw [masked, Nat.shiftRight_eq_div_pow]
    omega
  have lower : (c - 0x10000) &&& 0x3ff = (c - 0x10000) % 1024 := and_mask _ 10
  have high : 0xd800 ||| (c - 0x10000) / 1024 = 0xd800 + (c - 0x10000) / 1024 :=
    or_eq_add 10 (by omega) 54
  have low : 0xdc00 ||| (c - 0x10000) % 1024 = 0xdc00 + (c - 0x10000) % 1024 :=
    or_eq_add 10 (by omega) 55
  rw [utf16, if_neg (Nat.not_lt.mpr beyond), upper, lower, high, low]

/-- Pairs are taken apart again. -/
theorem utf16_joinPair {high low : JChar} (isHigh : isHigh high) (isLow : isLow low) :
    utf16 (joinPair high low) = [high, low] := by
  rw [isHigh_iff] at isHigh
  rw [isLow_iff] at isLow
  have joined := joinPair_eq high low
  have front : 0xd800 + (joinPair high low - 0x10000) / 1024 = high.toNat := by omega
  have back : 0xdc00 + (joinPair high low - 0x10000) % 1024 = low.toNat := by omega
  rw [utf16_pair (by omega) (by omega), front, back]
  simp only [BitVec.ofNat_toNat, BitVec.setWidth_eq]

/-- A string is its code points. -/
theorem flatMap_codePoints (str : JsString) : (codePoints str).flatMap utf16 = str := by
  fun_induction codePoints str with
  | case1 => rfl
  | case2 unit => simp [utf16_unit]
  | case3 unit next units paired ih =>
      rw [Bool.and_eq_true] at paired
      rw [List.flatMap_cons, utf16_joinPair paired.1 paired.2, ih]
      rfl
  | case4 unit next units single ih =>
      rw [List.flatMap_cons, utf16_unit, ih]
      rfl

/-- The inner loop takes up a continuation byte. -/
theorem joinRest_continuation (c value : Nat) {c_len : Nat} (more : 1 < c_len)
    (bytes : List Byte) :
    joinRest c c_len (continuation value :: bytes) =
      joinRest (c * 64 + value % 64) (c_len - 1) bytes := by
  have mask : 0x3f = 2 ^ 6 - 1 := rfl
  have low : (continuation value).toNat &&& 0x3f = value % 64 := by
    rw [toNat_continuation, mask, Nat.and_two_pow_sub_one_eq_mod]
    omega
  have joined : c <<< 6 ||| value % 64 = c * 64 + value % 64 := by
    have added : 2 ^ 6 * c ||| value % 64 = 2 ^ 6 * c + value % 64 := or_eq_add 6 (by omega) c
    rw [Nat.shiftLeft_eq, Nat.mul_comm c, added]
  rw [joinRest, if_pos more, low, joined]

theorem joinRest_done (c : Nat) (bytes : List Byte) : joinRest c 1 bytes = (c, 1, bytes) := by
  cases bytes with
  | nil => rfl
  | cons byte bytes => rw [joinRest, if_neg (by decide)]

/-- A sequence of some length: the first byte says how long it is, and what is left of it
without its mark is joined with the rest. -/
theorem readUnits_sequence {lead length : Nat} (bits : Nat) (small : lead < 256)
    (notAscii : 0x80 ≤ lead)
    (isLength : utf8len lead = length) (atMost : length ≤ 4)
    (mask : (if length = 2 then 0x1f else if length = 3 then 0x0f else 0x07) = 2 ^ bits - 1)
    (fuel : Nat) {bytes rest : List Byte} {c : Nat}
    (joins : joinRest (lead % 2 ^ bits) length bytes = (c, 1, rest)) :
    readUnits (fuel + 1) (toByte lead :: bytes) = utf16 c ++ readUnits fuel rest := by
  have noAscii : ¬lead < 0x80 := Nat.not_lt.mpr notAscii
  have notLonger : ¬length > 4 := Nat.not_lt.mpr atMost
  rw [readUnits, toNat_toByte small]
  simp only [if_neg noAscii, isLength, if_neg notLonger, mask, and_mask, joins]
  rfl

/-- A sequence is read as the code point it was written for. -/
theorem readUnits_encode {c : Nat} (bound : c < 0x110000) (fuel : Nat) (bytes : List Byte) :
    readUnits (fuel + 1) (encode c ++ bytes) = utf16 c ++ readUnits fuel bytes := by
  rw [encode_eq bound]
  by_cases ascii : c < 0x80
  · rw [if_pos ascii, List.singleton_append, readUnits, toNat_toByte (by omega)]
    simp only [if_pos ascii]
    rw [utf16, if_pos (by omega)]
    rfl
  by_cases two : c < 0x800
  · have length : utf8len (0xC0 + c / 64) = 2 := by grind [utf8len]
    rw [if_neg ascii, if_pos two, List.cons_append, List.singleton_append]
    refine readUnits_sequence 5 (by omega) (by omega) length (by decide) rfl fuel ?_
    rw [joinRest_continuation _ _ (by decide), joinRest_done]
    simp only [Prod.mk.injEq, and_true]
    omega
  by_cases three : c < 0x10000
  · have length : utf8len (0xE0 + c / 4096) = 3 := by grind [utf8len]
    rw [if_neg ascii, if_neg two, if_pos three]
    simp only [List.cons_append, List.nil_append]
    refine readUnits_sequence 4 (by omega) (by omega) length (by decide) rfl fuel ?_
    rw [joinRest_continuation _ _ (by decide), joinRest_continuation _ _ (by decide),
      joinRest_done]
    simp only [Prod.mk.injEq, and_true]
    omega
  · have length : utf8len (0xf0 + c / 262144) = 4 := by grind [utf8len]
    rw [if_neg ascii, if_neg two, if_neg three]
    simp only [List.cons_append, List.nil_append]
    refine readUnits_sequence 3 (by omega) (by omega) length (by decide) rfl fuel ?_
    rw [joinRest_continuation _ _ (by decide), joinRest_continuation _ _ (by decide),
      joinRest_continuation _ _ (by decide), joinRest_done]
    simp only [Prod.mk.injEq, and_true]
    omega

/-- Whatever limit there is on rounds, as long as it is not less than the code points. -/
theorem readUnits_flatMap {points : List Nat} (bounded : ∀ c ∈ points, c < 0x110000) {fuel : Nat}
    (enough : points.length ≤ fuel) :
    readUnits fuel (points.flatMap encode) = points.flatMap utf16 := by
  induction points generalizing fuel with
  | nil => cases fuel <;> rfl
  | cons c points ih =>
      rw [List.forall_mem_cons] at bounded
      cases fuel with
      | zero => cases enough
      | succ fuel =>
          rw [List.flatMap_cons, readUnits_encode bounded.1,
            ih bounded.2 (Nat.le_of_succ_le_succ enough), List.flatMap_cons]

theorem length_le_length_flatMap (points : List Nat) :
    points.length ≤ (points.flatMap encode).length := by
  induction points with
  | nil => exact Nat.le_refl _
  | cons c points ih =>
      have pos := byteCount_pos c
      rw [List.flatMap_cons, List.length_append, length_encode, List.length_cons]
      omega

/-- The limit that leaves out the rest of a buffer. -/
theorem buf2string_append {points : List Nat} (bounded : ∀ c ∈ points, c < 0x110000)
    (some : points ≠ []) (rest : List Byte) :
    buf2string (points.flatMap encode ++ rest) (points.flatMap encode).length =
      points.flatMap utf16 := by
  have enough := length_le_length_flatMap points
  have pos := List.length_pos_iff.mpr some
  rw [buf2string, if_neg (by omega), List.take_left]
  exact readUnits_flatMap bounded enough

/-! ## Well-formed strings -/

/-- The units of a well-formed string. -/
def unitsOf (string : JString) : JsString :=
  string.text.toList.flatMap fun character => utf16 character.toNat

theorem toNat_lt (character : Char) : character.toNat < 0x110000 := by
  have valid := character.valid
  have same : character.toNat = character.val.toNat := rfl
  rw [UInt32.isValidChar, Nat.isValidChar] at valid
  omega

/-- No character is a surrogate. -/
theorem codePoints_utf16 (character : Char) (units : JsString) :
    codePoints (utf16 character.toNat ++ units) = character.toNat :: codePoints units := by
  have valid := character.valid
  have same : character.toNat = character.val.toNat := rfl
  rw [UInt32.isValidChar, Nat.isValidChar, ← same] at valid
  by_cases basic : character.toNat < 0x10000
  · have toNat_unit : (BitVec.ofNat 16 character.toNat).toNat = character.toNat := by
      rw [BitVec.toNat_ofNat]
      omega
    have notHigh : isHigh (BitVec.ofNat 16 character.toNat) = false := by
      rw [← Bool.not_eq_true, isHigh_iff, toNat_unit]
      omega
    rw [utf16, if_pos basic, List.singleton_append]
    cases units with
    | nil => simp only [codePoints, toNat_unit]
    | cons next units =>
        rw [codePoints, notHigh, Bool.false_and, if_neg Bool.false_ne_true, toNat_unit]
  · let high : JChar := BitVec.ofNat 16 (0xd800 + (character.toNat - 0x10000) / 1024)
    let low : JChar := BitVec.ofNat 16 (0xdc00 + (character.toNat - 0x10000) % 1024)
    have toNat_high : high.toNat = 0xd800 + (character.toNat - 0x10000) / 1024 := by
      rw [BitVec.toNat_ofNat]
      omega
    have toNat_low : low.toNat = 0xdc00 + (character.toNat - 0x10000) % 1024 := by
      rw [BitVec.toNat_ofNat]
      omega
    have paired : (isHigh high && isLow low) = true := by
      rw [Bool.and_eq_true, isHigh_iff, isLow_iff]
      omega
    have joined : joinPair high low = character.toNat := by
      have eq := joinPair_eq high low
      omega
    have units_eq : utf16 character.toNat = [high, low] := utf16_pair (by omega) (by omega)
    rw [units_eq, List.cons_append, List.singleton_append, codePoints, if_pos paired, joined]

theorem codePoints_flatMap (characters : List Char) :
    codePoints (characters.flatMap fun character => utf16 character.toNat) =
      characters.map Char.toNat := by
  induction characters with
  | nil => rfl
  | cons character characters ih => rw [List.flatMap_cons, codePoints_utf16, ih, List.map_cons]

/-- The bytes of a character are those of the library. -/
theorem encode_toNat (character : Char) :
    encode character.toNat = (String.utf8EncodeChar character).map UInt8.toBitVec := by
  have bound := toNat_lt character
  have same : character.val.toNat = character.toNat := rfl
  rw [encode_eq bound, String.utf8EncodeChar]
  simp only [same]
  generalize character.toNat = c at bound
  by_cases ascii : c < 0x80
  · rw [if_pos ascii, if_pos (Nat.le_of_lt_succ ascii)]
    rfl
  have rest (value : Nat) : (UInt8.ofNat (value % 0x40 + 0x80)).toBitVec = continuation value := by
    rw [Nat.add_comm]
    rfl
  by_cases two : c < 0x800
  · have lead : c / 64 % 0x20 + 0xc0 = 0xC0 + c / 64 := by omega
    rw [if_neg ascii, if_neg (fun le => ascii (Nat.lt_succ_of_le le)), if_pos two,
      if_pos (Nat.le_of_lt_succ two), lead, List.map_cons, List.map_cons, rest]
    rfl
  by_cases three : c < 0x10000
  · have lead : c / 4096 % 0x10 + 0xe0 = 0xE0 + c / 4096 := by omega
    rw [if_neg ascii, if_neg (fun le => ascii (Nat.lt_succ_of_le le)), if_neg two,
      if_neg (fun le => two (Nat.lt_succ_of_le le)), if_pos three,
      if_pos (Nat.le_of_lt_succ three), lead, List.map_cons, List.map_cons, List.map_cons, rest,
      rest]
    rfl
  · have lead : c / 262144 % 0x08 + 0xf0 = 0xf0 + c / 262144 := by omega
    rw [if_neg ascii, if_neg (fun le => ascii (Nat.lt_succ_of_le le)), if_neg two,
      if_neg (fun le => two (Nat.lt_succ_of_le le)), if_neg three,
      if_neg (fun le => three (Nat.lt_succ_of_le le)), lead, List.map_cons, List.map_cons,
      List.map_cons, List.map_cons, rest, rest, rest]
    rfl

theorem string2buf_unitsOf (string : JString) : string2buf (unitsOf string) = some string.utf8 := by
  rw [string2buf_eq, unitsOf, codePoints_flatMap, JString.utf8, List.flatMap_map, List.map_flatMap]
  simp only [encode_toNat]

/-! ## Buffer after buffer -/

/-- What `Inflate` makes of a full buffer if it is to make a string: the text up to the
border, and the bytes that are moved to the front. -/
def takeText (buffer : List Byte) : JsString × List Byte :=
  let next_out_utf8 := utf8border buffer buffer.length
  (buf2string buffer next_out_utf8, buffer.drop next_out_utf8)

/-- Bytes that arrive in buffers of a given size, each with the rest of the one before at
its front. -/
def readBuffers (chunkSize : Nat) : Nat → List Byte → List Byte → JsString
  | 0, _, _ => []
  | fuel + 1, tail, bytes =>
      let room := chunkSize - tail.length
      let (text, tail) := takeText (tail ++ bytes.take room)
      if (bytes.drop room).isEmpty then text
      else text ++ readBuffers chunkSize fuel tail (bytes.drop room)

/-- `(buf[pos] & 0xC0) === 0x80` -/
def Continues (byte : Byte) : Prop :=
  byte.toNat &&& 0xC0 = 0x80

theorem continues_iff (byte : Byte) : Continues byte ↔ 0x80 ≤ byte.toNat ∧ byte.toNat < 0xC0 := by
  have upper : byte.toNat &&& 0xC0 = byte.toNat / 64 * 64 := @and_upper byte.toNat 6 2 byte.isLt
  rw [Continues, upper]
  omega

theorem continues_continuation (value : Nat) : Continues (continuation value) := by
  rw [continues_iff, toNat_continuation]
  omega

/-- A sequence: a first byte, which says how long it is, and the bytes that continue it. -/
theorem encode_sequence {c : Nat} (bound : c < 0x110000) :
    ∃ lead rest, encode c = lead :: rest ∧ ¬Continues lead ∧ (∀ byte ∈ rest, Continues byte) ∧
      utf8len lead.toNat = 1 + rest.length ∧ rest.length ≤ 3 := by
  rw [encode_eq bound]
  by_cases ascii : c < 0x80
  · refine ⟨_, _, if_pos ascii, ?_, nofun, ?_, by simp⟩
    · rw [continues_iff, toNat_toByte (by omega)]
      omega
    · rw [toNat_toByte (by omega)]
      grind [utf8len]
  rw [if_neg ascii]
  by_cases two : c < 0x800
  · refine ⟨_, _, if_pos two, ?_, by simp [continues_continuation], ?_, by simp⟩
    · rw [continues_iff, toNat_toByte (by omega)]
      omega
    · rw [toNat_toByte (by omega)]
      grind [utf8len]
  rw [if_neg two]
  by_cases three : c < 0x10000
  · refine ⟨_, _, if_pos three, ?_, by simp [continues_continuation], ?_, by simp⟩
    · rw [continues_iff, toNat_toByte (by omega)]
      omega
    · rw [toNat_toByte (by omega)]
      grind [utf8len]
  · refine ⟨_, _, if_neg three, ?_, by simp [continues_continuation], ?_, by simp⟩
    · rw [continues_iff, toNat_toByte (by omega)]
      omega
    · rw [toNat_toByte (by omega)]
      grind [utf8len]

/-- The way back to the start of a sequence. -/
theorem sequenceStart_append (front : List Byte) {rest : List Byte} {lead : Byte}
    (starts : ¬Continues lead)
    (continued : ∀ byte ∈ rest, Continues byte) (after : List Byte) :
    sequenceStart (front ++ lead :: rest ++ after) (front.length + 1 + rest.length) =
      some front.length := by
  induction rest using List.reverseRecOn generalizing after with
  | nil =>
      rw [List.length_nil, Nat.add_zero, sequenceStart, if_neg ?_]
      simpa [Continues] using starts
  | append_singleton rest last ih =>
      have continues : Continues last := continued last (by simp)
      have moved : front ++ lead :: (rest ++ [last]) ++ after =
          front ++ lead :: rest ++ last :: after := by simp
      rw [moved, List.length_append, List.length_singleton, ← Nat.add_assoc, sequenceStart,
        if_pos ?_]
      · exact ih (fun byte member => continued byte (by simp [member])) _
      · have length : (front ++ lead :: rest).length = front.length + 1 + rest.length := by
          simp only [List.length_append, List.length_cons]
          omega
        rw [← length, List.getD_eq_getElem?_getD, List.getElem?_append_right (Nat.le_refl _),
          Nat.sub_self]
        exact continues

/-- The border of a buffer is before its last sequence if that has not arrived as a whole,
unless there is nothing before it. -/
theorem utf8border_append {front rest : List Byte} {lead : Byte} (starts : ¬Continues lead)
    (continued : ∀ byte ∈ rest, Continues byte) :
    utf8border (front ++ lead :: rest) (front ++ lead :: rest).length =
      if front ≠ [] ∧ 1 + rest.length < utf8len lead.toNat then front.length
      else (front ++ lead :: rest).length := by
  have length : (front ++ lead :: rest).length = front.length + 1 + rest.length := by
    simp only [List.length_append, List.length_cons]
    omega
  have start := sequenceStart_append front starts continued []
  rw [List.append_nil, ← length] at start
  have first : (front ++ lead :: rest).getD front.length 0 = lead := by simp
  have notZero : ¬(front ++ lead :: rest).length = 0 := by omega
  simp only [utf8border, if_neg notZero, gt_iff_lt, Nat.lt_irrefl, if_false, start]
  cases front with
  | nil => rw [if_neg (fun both => both.1 rfl)]; rfl
  | cons byte front =>
      simp only [List.length_cons] at first length ⊢
      simp only [first, ne_eq, reduceCtorEq, not_false_eq_true, true_and]
      by_cases cut : 1 + rest.length < utf8len lead.toNat
      · rw [if_pos cut, if_pos (by simp only [List.length_append, List.length_cons] at *; omega)]
      · rw [if_neg cut, if_neg (by simp only [List.length_append, List.length_cons] at *; omega)]

/-- Wherever a text is cut, there are the code points that have arrived as a whole, and a
part of the next one. -/
theorem exists_take_flatMap (points : List Nat) (size : Nat) :
    ∃ whole later part, points = whole ++ later ∧
      (points.flatMap encode).take size = whole.flatMap encode ++ part ∧
      (part = [] ∨ ∃ c others taken, later = c :: others ∧ part = (encode c).take taken ∧
        taken < (encode c).length) := by
  induction points generalizing size with
  | nil => exact ⟨[], [], [], rfl, by simp, Or.inl rfl⟩
  | cons c points ih =>
      by_cases fits : (encode c).length ≤ size
      · rcases ih (size - (encode c).length) with ⟨whole, later, part, rfl, cut, isPart⟩
        refine ⟨c :: whole, later, part, rfl, ?_, isPart⟩
        rw [List.flatMap_cons, List.take_append, List.take_of_length_le fits, cut,
          List.flatMap_cons, List.append_assoc]
      · refine ⟨[], c :: points, (encode c).take size, rfl, ?_, Or.inr ⟨c, points, size, rfl, rfl,
          Nat.not_le.mp fits⟩⟩
        rw [List.flatMap_cons, List.take_append_of_le_length (Nat.le_of_lt (Nat.not_le.mp fits))]
        rfl

/-- A buffer that ends with a sequence is taken as a whole. -/
theorem takeText_whole {points : List Nat} (bounded : ∀ c ∈ points, c < 0x110000)
    (nonempty : points ≠ []) :
    takeText (points.flatMap encode) = (points.flatMap utf16, []) := by
  have split := List.dropLast_append_getLast nonempty
  have isBounded := bounded _ (List.getLast_mem nonempty)
  rcases encode_sequence isBounded with ⟨lead, rest, encoded, starts, continued, length, _⟩
  have bytes : points.flatMap encode = points.dropLast.flatMap encode ++ lead :: rest := by
    rw [← encoded, ← List.flatMap_singleton encode (points.getLast nonempty), ← List.flatMap_append,
      split]
  have border : utf8border (points.flatMap encode) (points.flatMap encode).length =
      (points.flatMap encode).length := by
    rw [bytes, utf8border_append starts continued]
    exact if_neg fun both => absurd both.2 (by omega)
  have text := buf2string_append bounded nonempty []
  rw [List.append_nil] at text
  rw [takeText, border, text, List.drop_length]

/-- A buffer that ends with a part of one is taken up to there. -/
theorem takeText_part {points : List Nat} (bounded : ∀ c ∈ points, c < 0x110000)
    (nonempty : points ≠ []) {c taken : Nat} (isBounded : c < 0x110000)
    (less : taken < (encode c).length) :
    takeText (points.flatMap encode ++ (encode c).take taken) =
      (points.flatMap utf16, (encode c).take taken) := by
  cases taken with
  | zero =>
      rw [List.take_zero, List.append_nil]
      exact takeText_whole bounded nonempty
  | succ taken =>
      rcases encode_sequence isBounded with ⟨lead, rest, encoded, starts, continued, length, _⟩
      rw [encoded, List.length_cons] at less
      rw [encoded, List.take_succ_cons]
      have front : points.flatMap encode ≠ [] := by
        have count := length_le_length_flatMap points
        have pos := List.length_pos_iff.mpr nonempty
        exact List.length_pos_iff.mp (by omega)
      have border : utf8border (points.flatMap encode ++ lead :: rest.take taken)
          (points.flatMap encode ++ lead :: rest.take taken).length =
            (points.flatMap encode).length := by
        have continuedTaken : ∀ byte ∈ rest.take taken, Continues byte :=
          fun byte member => continued byte (List.mem_of_mem_take member)
        have partly : 1 + (rest.take taken).length < utf8len lead.toNat := by
          rw [List.length_take]
          omega
        rw [utf8border_append starts continuedTaken, if_pos ⟨front, partly⟩]
      rw [takeText, border, buf2string_append bounded nonempty, List.drop_left]

theorem length_encode_le {c : Nat} (bound : c < 0x110000) : (encode c).length ≤ 4 := by
  rcases encode_sequence bound with ⟨lead, rest, encoded, _, _, _, short⟩
  rw [encoded, List.length_cons]
  omega

/-- Buffers that are large enough for any sequence give the text that the bytes give as a
whole. -/
theorem readBuffers_flatMap {chunkSize : Nat} (enough : 4 ≤ chunkSize) {points : List Nat}
    (bounded : ∀ c ∈ points, c < 0x110000) {fuel : Nat} (rounds : points.length ≤ fuel)
    (nonempty : points ≠ []) {tail bytes : List Byte} (isTail : tail.length ≤ chunkSize)
    (all : tail ++ bytes = points.flatMap encode) :
    readBuffers chunkSize fuel tail bytes = points.flatMap utf16 := by
  induction fuel generalizing points tail bytes with
  | zero => exact absurd (List.length_eq_zero_iff.mp (Nat.le_zero.mp rounds)) nonempty
  | succ fuel ih =>
      have buffer : tail ++ bytes.take (chunkSize - tail.length) =
          (points.flatMap encode).take chunkSize := by
        rw [← all, List.take_append, List.take_of_length_le isTail]
      have later : bytes.drop (chunkSize - tail.length) =
          (points.flatMap encode).drop chunkSize := by
        rw [← all, List.drop_append, List.drop_of_length_le isTail, List.nil_append]
      rcases exists_take_flatMap points chunkSize with ⟨whole, rest, part, rfl, cut, isPart⟩
      rw [List.forall_mem_append] at bounded
      -- the first code point fits
      have some : whole ≠ [] := by
        rintro rfl
        rcases isPart with rfl | ⟨c, others, taken, rfl, rfl, less⟩
        · have start := length_le_length_flatMap ([] ++ rest)
          have pos := List.length_pos_iff.mpr nonempty
          have count := congrArg List.length cut
          simp only [List.nil_append, List.flatMap_nil, List.length_nil, List.length_take]
            at start pos count
          omega
        · have short := length_encode_le (bounded.2 c List.mem_cons_self)
          have count := congrArg List.length cut
          simp only [List.nil_append, List.flatMap_nil, List.flatMap_cons, List.length_take,
            List.length_append] at count
          omega
      have remains : part ++ ((whole ++ rest).flatMap encode).drop chunkSize =
          rest.flatMap encode := by
        have joined := List.take_append_drop chunkSize ((whole ++ rest).flatMap encode)
        rw [cut, List.append_assoc] at joined
        have same := joined.trans List.flatMap_append
        exact List.append_cancel_left same
      have taken : takeText (whole.flatMap encode ++ part) = (whole.flatMap utf16, part) := by
        rcases isPart with rfl | ⟨c, others, taken, rfl, rfl, less⟩
        · rw [List.append_nil]
          exact takeText_whole bounded.1 some
        · exact takeText_part bounded.1 some (bounded.2 c List.mem_cons_self) less
      simp only [readBuffers, buffer, later, cut, taken, List.isEmpty_iff]
      by_cases done : ((whole ++ rest).flatMap encode).drop chunkSize = []
      · rw [if_pos done]
        rw [done, List.append_nil] at remains
        rcases isPart with rfl | ⟨c, others, taken, rfl, rfl, less⟩
        · have last : rest = [] := by
            have count := length_le_length_flatMap rest
            rw [← remains] at count
            exact List.length_eq_zero_iff.mp (Nat.le_zero.mp count)
          rw [last, List.append_nil]
        · have count := congrArg List.length remains
          rw [List.length_take, List.flatMap_cons, List.length_append] at count
          omega
      · have more : rest ≠ [] := by
          rintro rfl
          exact done (List.append_eq_nil_iff.mp remains).2
        have pos := List.length_pos_iff.mpr some
        rw [List.length_append] at rounds
        have short : part.length ≤ chunkSize := by
          have count := congrArg List.length cut
          rw [List.length_take, List.length_append] at count
          omega
        rw [if_neg done, ih bounded.2 (by omega) more short remains, List.flatMap_append]

/-- In buffers of four bytes or more every string survives, although they cut its
sequences anywhere. -/
theorem readBuffers_codePoints {chunkSize : Nat} (enough : 4 ≤ chunkSize) (str : JsString) :
    readBuffers chunkSize (((codePoints str).flatMap encode).length + 1) []
      ((codePoints str).flatMap encode) = str := by
  by_cases empty : codePoints str = []
  · have none := flatMap_codePoints str
    rw [empty, List.flatMap_nil] at none
    rw [empty, ← none]
    simp only [List.flatMap_nil, readBuffers, List.take_nil, List.drop_nil]
    rfl
  · have rounds := (length_le_length_flatMap (codePoints str)).trans (Nat.le_succ _)
    rw [readBuffers_flatMap enough (codePoints_lt str) rounds empty (Nat.zero_le _)
      (List.nil_append _)]
    exact flatMap_codePoints str

/-- Every string survives as bytes, whether or not its surrogates are paired.  The two
passes of `string2buf` agree on how many bytes there are, the bytes of a well-formed
string are its UTF-8, and it makes no difference whether they are read at once or buffer
after buffer. -/
theorem string_round_trip {chunkSize : Nat} (enough : 4 ≤ chunkSize) (str : JsString) :
    ∃ buf, string2buf str = some buf ∧ buf.length = bufLen str ∧ buf2string buf 0 = str ∧
      readBuffers chunkSize (buf.length + 1) [] buf = str ∧
      ∀ string, unitsOf string = str → buf = string.utf8 := by
  refine ⟨_, string2buf_eq str, ?_, ?_, readBuffers_codePoints enough str, ?_⟩
  · rw [bufLen_eq, List.length_flatMap]
    simp only [length_encode]
  · rw [buf2string, if_pos rfl, List.take_length,
      readUnits_flatMap (codePoints_lt str) (length_le_length_flatMap _)]
    exact flatMap_codePoints str
  · rintro string rfl
    exact Option.some.inj ((string2buf_eq _).symm.trans (string2buf_unitsOf string))

/-- Half a pair, a letter and a whole pair, in buffers of four bytes. -/
theorem string_round_trip_surrogates :
    string2buf [0xd800, 0x41, 0xd83d, 0xde00] =
        some [0xed, 0xa0, 0x80, 0x41, 0xf0, 0x9f, 0x98, 0x80] ∧
      ∃ buf, string2buf [0xd800, 0x41, 0xd83d, 0xde00] = some buf ∧
        readBuffers 4 (buf.length + 1) [] buf = [0xd800, 0x41, 0xd83d, 0xde00] := by
  refine ⟨by decide, ?_⟩
  rcases string_round_trip (Nat.le_refl 4) [0xd800, 0x41, 0xd83d, 0xde00] with
    ⟨buf, written, _, _, read, _⟩
  exact ⟨buf, written, read⟩

end WebbitGwt.Pako
