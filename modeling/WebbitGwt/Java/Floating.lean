import WebbitGwt.Java.Basic

/-!
# `float` and `double`

The streams only move floating-point values, so a value is its bit pattern.  Java
treats all NaNs as one value, which is the one that `floatToIntBits` and
`doubleToLongBits` yield; a pattern that is another NaN does not occur as a value.
-/

namespace WebbitGwt.Java

/-- Bit patterns with the NaNs collapsed into one. -/
structure Floating {width : Nat} (isNaN : BitVec width → Bool) (nan : BitVec width) where
  bits : BitVec width
  canonical : isNaN bits = true → bits = nan
  deriving DecidableEq

namespace Floating

variable {width : Nat} {isNaN : BitVec width → Bool} {nan : BitVec width}

/-- The value of a bit pattern. -/
def ofBits (bits : BitVec width) : Floating isNaN nan :=
  if isNumber : isNaN bits = true then
    { bits := nan, canonical := fun _ => rfl }
  else
    { bits := bits, canonical := fun notNumber => absurd notNumber isNumber }

/-- A value is the value of its pattern. -/
@[simp]
theorem ofBits_bits (value : Floating isNaN nan) : ofBits value.bits = value := by
  unfold ofBits
  split
  · rename_i notNumber
    rcases value with ⟨bits, canonical⟩
    have isCanonical : bits = nan := canonical notNumber
    subst isCanonical
    rfl
  · rfl

end Floating

/-- All exponent bits are set, and some fraction bit. -/
def isNaN32 (bits : BitVec 32) : Bool :=
  bits.extractLsb' 23 8 == 0xff && bits.extractLsb' 0 23 != 0

/-- Likewise in double precision. -/
def isNaN64 (bits : BitVec 64) : Bool :=
  bits.extractLsb' 52 11 == 0x7ff && bits.extractLsb' 0 52 != 0

/-- `float` -/
abbrev JFloat := Floating isNaN32 0x7fc00000

/-- `double` -/
abbrev JDouble := Floating isNaN64 0x7ff8000000000000

/-- `Double.doubleToLongBits` -/
def doubleToLongBits (value : JDouble) : JLong :=
  value.bits

/-- `Double.longBitsToDouble` -/
def longBitsToDouble (bits : JLong) : JDouble :=
  .ofBits bits

theorem longBitsToDouble_doubleToLongBits (value : JDouble) :
    longBitsToDouble (doubleToLongBits value) = value :=
  value.ofBits_bits

end WebbitGwt.Java
