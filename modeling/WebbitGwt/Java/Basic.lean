import Mathlib.Data.BitVec

/-!
# Java values shared by the endpoints and the streams

The primitive integers are bit vectors of the width the language gives them.
Exceptions carry the texts that the modelled code gives them; what user code or
the library throws is kept apart only as far as the modelled `catch` clauses do.
-/

namespace WebbitGwt.Java

/-- `int` -/
abbrev JInt := BitVec 32

/-- `byte` -/
abbrev JByte := BitVec 8

/-- `short` -/
abbrev JShort := BitVec 16

/-- `char`, an unsigned UTF-16 code unit -/
abbrev JChar := BitVec 16

/-- `long` -/
abbrev JLong := BitVec 64

/-- A natural number below the largest `int` survives as one. -/
theorem toNat_ofNat_of_lt {value : Nat} (inRange : value < 2 ^ 31) :
    (BitVec.ofNat 32 value).toNat = value := by
  rw [BitVec.toNat_ofNat, Nat.mod_eq_of_lt (by omega)]

theorem toInt_ofNat_of_lt {value : Nat} (inRange : value < 2 ^ 31) :
    (BitVec.ofNat 32 value).toInt = value := by
  have toNat_eq := toNat_ofNat_of_lt inRange
  rw [BitVec.toInt_eq_toNat_of_lt (by omega), toNat_eq]

/-- The exceptions the modelled code throws, catches or passes on. -/
inductive Throwable
  | serializationException (message : String)
  | runtimeException (message : String)
  | illegalStateException (message : String)
  | illegalArgumentException (message : String)
  | illegalAccessException (message : String)
  | nullPointerException
  | classCastException
  | userException (name : String)
  deriving DecidableEq, Repr

/-- `Throwable.toString`: class name, colon, message. -/
def Throwable.toString : Throwable → String
  | .serializationException message =>
      "com.google.gwt.user.client.rpc.SerializationException: " ++ message
  | .runtimeException message => "java.lang.RuntimeException: " ++ message
  | .illegalStateException message => "java.lang.IllegalStateException: " ++ message
  | .illegalArgumentException message => "java.lang.IllegalArgumentException: " ++ message
  | .illegalAccessException message => "java.lang.IllegalAccessException: " ++ message
  | .nullPointerException => "java.lang.NullPointerException"
  | .classCastException => "java.lang.ClassCastException"
  | .userException name => name

/-- `new RuntimeException(cause)` takes its message from the cause. -/
def Throwable.wrap (cause : Throwable) : Throwable :=
  .runtimeException cause.toString

end WebbitGwt.Java
