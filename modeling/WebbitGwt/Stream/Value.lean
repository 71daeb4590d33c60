import WebbitGwt.Java.Floating

/-!
# The values of a stream

Everything a stream carries is written and read by type.  Strings are a parameter:
nothing but equality of strings matters to a stream, except where they are
compressed.
-/

namespace WebbitGwt.Stream

open WebbitGwt.Java

/-- The types that `write*` and `read*` methods exist for. -/
inductive Kind
  | int
  | boolean
  | byte
  | char
  | short
  | long
  | float
  | double
  | string
  deriving DecidableEq, Repr

/-- A value of one of these types; a string may be null. -/
inductive Value (S : Type)
  | int (value : JInt)
  | boolean (value : Bool)
  | byte (value : JByte)
  | char (value : JChar)
  | short (value : JShort)
  | long (value : JLong)
  | float (value : JFloat)
  | double (value : JDouble)
  | string (value : Option S)
  deriving DecidableEq

/-- The type a value is written as. -/
def Value.kind {S : Type} : Value S → Kind
  | .int _ => .int
  | .boolean _ => .boolean
  | .byte _ => .byte
  | .char _ => .char
  | .short _ => .short
  | .long _ => .long
  | .float _ => .float
  | .double _ => .double
  | .string _ => .string

/-- `BITS` -/
def bits : Nat := 22

/-- `BITS01` -/
def bits01 : Nat := 2 * bits

/-- `BITS2` -/
def bits2 : Nat := 64 - bits01

/-- `MASK`, widened to a `long` -/
def mask : JLong := (1 <<< bits) - 1

/-- `MASK_2`, widened to a `long` -/
def mask2 : JLong := (1 <<< bits2) - 1

/-- The three integers that `writeLong` writes. -/
def splitLong (value : JLong) : JInt × JInt × JInt :=
  ((value &&& mask).setWidth 32, ((value.sshiftRight bits) &&& mask).setWidth 32,
    ((value.sshiftRight bits01) &&& mask2).setWidth 32)

/-- What `readLong` makes of three integers. -/
def joinLong (first second third : JInt) : JLong :=
  first.signExtend 64 + (second.signExtend 64 <<< bits) + (third.signExtend 64 <<< bits01)

theorem getLsbD_mask (index : Nat) : mask.getLsbD index = decide (index < 22) := by
  have isPow : mask = BitVec.ofNat 64 (2 ^ 22 - 1) := rfl
  rw [isPow, BitVec.getLsbD_ofNat, Nat.testBit_two_pow_sub_one]
  grind

theorem getLsbD_mask2 (index : Nat) : mask2.getLsbD index = decide (index < 20) := by
  have isPow : mask2 = BitVec.ofNat 64 (2 ^ 20 - 1) := rfl
  rw [isPow, BitVec.getLsbD_ofNat, Nat.testBit_two_pow_sub_one]
  grind

/-- A piece of at most 31 bits survives the way through a non-negative `int`. -/
theorem signExtend_setWidth {piece : JLong}
    (small : ∀ index, 31 ≤ index → piece.getLsbD index = false) :
    (piece.setWidth 32).signExtend 64 = piece := by
  apply BitVec.eq_of_getLsbD_eq
  intro index bound
  have msb : (piece.setWidth 32).msb = false := by
    rw [BitVec.msb_eq_getLsbD_last, BitVec.getLsbD_setWidth, small 31 (by omega), Bool.and_false]
  rw [BitVec.getLsbD_signExtend, msb]
  by_cases low : index < 32
  · simp [low, bound]
  · simp [low, small index (by omega)]

/-- Twenty-two bits, twenty-two bits, twenty bits: the pieces of a `long` make it up,
whatever its sign. -/
theorem joinLong_splitLong (value : JLong) :
    joinLong (splitLong value).1 (splitLong value).2.1 (splitLong value).2.2 = value := by
  simp only [joinLong, splitLong]
  rw [signExtend_setWidth, signExtend_setWidth, signExtend_setWidth]
  · -- the pieces do not overlap, so adding them puts them side by side
    have lower : (value &&& mask) + (value.sshiftRight bits &&& mask) <<< bits =
        (value &&& mask) ||| (value.sshiftRight bits &&& mask) <<< bits := by
      apply BitVec.add_eq_or_of_and_eq_zero
      apply BitVec.eq_of_getLsbD_eq
      intro index bound
      simp only [BitVec.getLsbD_and, BitVec.getLsbD_shiftLeft, getLsbD_mask, bits,
        BitVec.getLsbD_zero]
      grind
    rw [lower, BitVec.add_eq_or_of_and_eq_zero]
    all_goals
      apply BitVec.eq_of_getLsbD_eq
      intro index bound
      simp only [BitVec.getLsbD_or, BitVec.getLsbD_and, BitVec.getLsbD_shiftLeft,
        BitVec.getLsbD_sshiftRight, getLsbD_mask, getLsbD_mask2, bits, bits01,
        BitVec.getLsbD_zero]
      grind
  all_goals
    intro index large
    simp only [BitVec.getLsbD_and, getLsbD_mask, getLsbD_mask2]
    grind

end WebbitGwt.Stream
