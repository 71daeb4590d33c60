import WebbitGwt.Rpc.Message
import WebbitGwt.Tokens.Core

/-!
# The custom field serializers of the wrapper messages

Each wrapper class has a serializer written by hand, since the type of its parameters or
of its response is `Object`.  Those of the invocations write the number of parameters in
front of them and fill an array of that length.  Two of them write a null array as an
empty one; the one for `ServerInvocation` asks the null reference for its length.
-/

namespace WebbitGwt.Rpc

open WebbitGwt.Java
open WebbitGwt.Tokens

/-- What a call of one of the used methods of `SerializationStreamWriter` adds to a stream. -/
inductive Token (V : Type)
  | string (value : String)
  | int (value : JInt)
  | boolean (value : Bool)
  | object (value : V)
  deriving DecidableEq

variable {V : Type}

namespace SerializationStreamWriter

abbrev Write (V : Type) := TokenWriter Throwable (Token V)

def writeString (value : String) : Write V PUnit :=
  put (.string value)

def writeInt (value : JInt) : Write V PUnit :=
  put (.int value)

def writeBoolean (value : Bool) : Write V PUnit :=
  put (.boolean value)

def writeObject (value : V) : Write V PUnit :=
  put (.object value)

theorem writes_string (value : String) : Writes (writeString (V := V) value) [.string value] :=
  Writes.put _

theorem writes_int (value : JInt) : Writes (writeInt (V := V) value) [.int value] :=
  Writes.put _

theorem writes_boolean (value : Bool) : Writes (writeBoolean (V := V) value) [.boolean value] :=
  Writes.put _

theorem writes_object (value : V) : Writes (writeObject value) [.object value] :=
  Writes.put _

end SerializationStreamWriter

namespace SerializationStreamReader

abbrev Read (V : Type) := TokenReader (Token V)

def readString : Read V String :=
  take fun
    | .string value => some value
    | _ => none

def readInt : Read V JInt :=
  take fun
    | .int value => some value
    | _ => none

def readBoolean : Read V Bool :=
  take fun
    | .boolean value => some value
    | _ => none

def readObject : Read V V :=
  take fun
    | .object value => some value
    | _ => none

theorem reads_string (value : String) : Reads (readString (V := V)) [.string value] value :=
  Reads.take rfl

theorem reads_int (value : JInt) : Reads (readInt (V := V)) [.int value] value :=
  Reads.take rfl

theorem reads_boolean (value : Bool) : Reads (readBoolean (V := V)) [.boolean value] value :=
  Reads.take rfl

theorem reads_object (value : V) : Reads readObject [.object value] value :=
  Reads.take rfl

end SerializationStreamReader

open SerializationStreamWriter SerializationStreamReader

/-! ## Invocations -/

/-- The length of an array and its elements. -/
def writeArray (parameters : List V) : Write V PUnit := do
  writeInt (BitVec.ofNat 32 parameters.length)
  writeEach writeObject parameters

/-- `new Object[length]` and the loop that fills it.  There is no array of negative
length. -/
def readArray : Read V (List V) := do
  let length ← readInt
  if length.slt 0 then failure else readTimes readObject length.toNat

/-- `serialize` of `RemoteInvocation` and `ClientInvocation`. -/
def writeInvocation (call : Invocation V) : Write V PUnit := do
  writeString call.method
  writeInt call.callbackId
  match call.parameters with
  | none => writeInt 0
  | some parameters => writeArray parameters

/-- `deserialize` of all three invocations. -/
def readInvocation (call : Invocation V) : Read V (Invocation V) := do
  let method ← readString
  let callbackId ← readInt
  let params ← readArray
  return { call with method := method, callbackId := callbackId, parameters := some params }

namespace RemoteInvocationCustomFieldSerializer

def serialize (call : RemoteInvocation V) : Write V PUnit :=
  writeInvocation call

def deserialize (call : RemoteInvocation V) : Read V (RemoteInvocation V) :=
  readInvocation call

end RemoteInvocationCustomFieldSerializer

namespace ClientInvocationCustomFieldSerializer

def serialize (call : ClientInvocation V) : Write V PUnit :=
  writeInvocation call

def deserialize (call : ClientInvocation V) : Read V (ClientInvocation V) :=
  readInvocation call

end ClientInvocationCustomFieldSerializer

namespace ServerInvocationCustomFieldSerializer

/-- The one without a test for null. -/
def serialize (call : ServerInvocation V) : Write V PUnit := do
  writeString call.method
  writeInt call.callbackId
  match call.parameters with
  | none => throw .nullPointerException
  | some parameters => writeArray parameters

def deserialize (call : ServerInvocation V) : Read V (ServerInvocation V) :=
  readInvocation call

end ServerInvocationCustomFieldSerializer

/-! ## Uses of callbacks -/

/-- `serialize` of the three callback invocations. -/
def writeCallbackInvocation (answer : CallbackInvocation V) : Write V PUnit := do
  writeInt answer.callbackId
  writeBoolean answer.isSuccess
  writeObject answer.response

/-- `deserialize` of the three callback invocations. -/
def readCallbackInvocation (answer : CallbackInvocation V) : Read V (CallbackInvocation V) := do
  let callbackId ← readInt
  let isSuccess ← readBoolean
  let response ← readObject
  return { answer with callbackId := callbackId, isSuccess := isSuccess, response := response }

namespace RemoteCallbackInvocationCustomFieldSerializer

def serialize (answer : RemoteCallbackInvocation V) : Write V PUnit :=
  writeCallbackInvocation answer

def deserialize (answer : RemoteCallbackInvocation V) : Read V (RemoteCallbackInvocation V) :=
  readCallbackInvocation answer

end RemoteCallbackInvocationCustomFieldSerializer

namespace ClientCallbackInvocationCustomFieldSerializer

def serialize (answer : ClientCallbackInvocation V) : Write V PUnit :=
  writeCallbackInvocation answer

def deserialize (answer : ClientCallbackInvocation V) : Read V (ClientCallbackInvocation V) :=
  readCallbackInvocation answer

end ClientCallbackInvocationCustomFieldSerializer

namespace ServerCallbackInvocationCustomFieldSerializer

def serialize (answer : ServerCallbackInvocation V) : Write V PUnit :=
  writeCallbackInvocation answer

def deserialize (answer : ServerCallbackInvocation V) : Read V (ServerCallbackInvocation V) :=
  readCallbackInvocation answer

end ServerCallbackInvocationCustomFieldSerializer

/-! ## What the six of them promise -/

/-- An invocation as it is in memory, where no array has more than 2^31 - 1 elements. -/
structure InvocationObject (V : Type) extends Invocation V where
  length_lt : ∀ elements, parameters = some elements → elements.length < 2 ^ 31

/-- What `received` makes of an invocation: a null array has become an empty one. -/
def Invocation.withArray (call : Invocation V) : Invocation V :=
  { call with parameters := some (call.parameters.getD []) }

/-- An object of one of the wrapper classes. -/
inductive Wrapper (V : Type)
  | remoteInvocation (call : InvocationObject V)
  | clientInvocation (call : InvocationObject V)
  | serverInvocation (call : InvocationObject V)
  | remoteCallbackInvocation (answer : CallbackInvocation V)
  | clientCallbackInvocation (answer : CallbackInvocation V)
  | serverCallbackInvocation (answer : CallbackInvocation V)

/-- What the serializer of an object writes, its deserializer reads, into whatever object it
is given.  A null array may arrive as an empty one. -/
def Wrapper.Frames : Wrapper V → Prop
  | .remoteInvocation call => ∀ created,
      RoundTrips (RemoteInvocationCustomFieldSerializer.serialize call.toInvocation)
        (RemoteInvocationCustomFieldSerializer.deserialize created) call.withArray
  | .clientInvocation call => ∀ created,
      RoundTrips (ClientInvocationCustomFieldSerializer.serialize call.toInvocation)
        (ClientInvocationCustomFieldSerializer.deserialize created) call.withArray
  | .serverInvocation call => ∀ created,
      RoundTrips (ServerInvocationCustomFieldSerializer.serialize call.toInvocation)
        (ServerInvocationCustomFieldSerializer.deserialize created) call.withArray
  | .remoteCallbackInvocation answer => ∀ created,
      RoundTrips (RemoteCallbackInvocationCustomFieldSerializer.serialize answer)
        (RemoteCallbackInvocationCustomFieldSerializer.deserialize created) answer
  | .clientCallbackInvocation answer => ∀ created,
      RoundTrips (ClientCallbackInvocationCustomFieldSerializer.serialize answer)
        (ClientCallbackInvocationCustomFieldSerializer.deserialize created) answer
  | .serverCallbackInvocation answer => ∀ created,
      RoundTrips (ServerCallbackInvocationCustomFieldSerializer.serialize answer)
        (ServerCallbackInvocationCustomFieldSerializer.deserialize created) answer

/-- The object is no `ServerInvocation`, or it has a parameter array. -/
def Wrapper.HasArray : Wrapper V → Prop
  | .serverInvocation call => call.parameters ≠ none
  | _ => True

/-- What the models of the connections take for a received message is what is read. -/
theorem Message.received_invocation (call : Invocation V) :
    (Message.invocation call).received = .invocation call.withArray := rfl

/-- The tokens of an array. -/
def arrayTokens (parameters : List V) : List (Token V) :=
  .int (BitVec.ofNat 32 parameters.length) :: parameters.flatMap fun value => [.object value]

theorem writes_writeArray (parameters : List V) :
    Writes (writeArray parameters) (arrayTokens parameters) := by
  apply Writes.seq (writes_int _)
  exact Writes.each fun value _ => writes_object value

theorem reads_readArray {parameters : List V} (length_lt : parameters.length < 2 ^ 31) :
    Reads readArray (arrayTokens parameters) parameters := by
  have notNegative : ¬ (BitVec.ofNat 32 parameters.length).slt 0 = true := by
    rw [BitVec.slt, toInt_ofNat_of_lt length_lt]
    simp
  apply Reads.seq (reads_int _)
  rw [if_neg notNegative, toNat_ofNat_of_lt length_lt]
  exact Reads.times fun value _ => reads_object value

/-- The tokens of an invocation with an array. -/
def invocationTokens (call : Invocation V) (parameters : List V) : List (Token V) :=
  [.string call.method] ++ ([.int call.callbackId] ++ arrayTokens parameters)

/-- The head of all three `serialize` methods, with an array after it. -/
theorem writes_invocation (call : Invocation V) {parameters : List V} {rest : Write V PUnit}
    (writes : Writes rest (arrayTokens parameters)) :
    Writes (do writeString call.method; writeInt call.callbackId; rest)
      (invocationTokens call parameters) :=
  (writes_string _).seq ((writes_int _).seq writes)

theorem writes_writeInvocation {call : Invocation V} {parameters : List V}
    (array : call.parameters = some parameters) :
    Writes (writeInvocation call) (invocationTokens call parameters) := by
  unfold writeInvocation
  rw [array]
  exact writes_invocation call (writes_writeArray parameters)

theorem reads_readInvocation (call created : Invocation V) {parameters : List V}
    (length_lt : parameters.length < 2 ^ 31) :
    Reads (readInvocation created) (invocationTokens call parameters)
      { call with parameters := some parameters } := by
  apply Reads.seq (reads_string _)
  apply Reads.seq (reads_int _)
  exact (reads_readArray length_lt).map _

/-- A null array takes the same token as an empty one. -/
theorem roundTrips_writeInvocation (call : InvocationObject V) (created : Invocation V) :
    RoundTrips (writeInvocation call.toInvocation) (readInvocation created) call.withArray := by
  cases array : call.parameters with
  | none =>
      refine ⟨invocationTokens call.toInvocation [], ?_, ?_⟩
      · unfold writeInvocation
        rw [array]
        exact writes_invocation call.toInvocation (writes_int 0)
      · rw [Invocation.withArray, array]
        exact reads_readInvocation _ _ (Nat.two_pow_pos 31)
  | some parameters =>
      refine ⟨invocationTokens call.toInvocation parameters, writes_writeInvocation array, ?_⟩
      rw [Invocation.withArray, array]
      exact reads_readInvocation _ _ (call.length_lt parameters array)

theorem roundTrips_writeCallbackInvocation (answer created : CallbackInvocation V) :
    RoundTrips (writeCallbackInvocation answer) (readCallbackInvocation created) answer := by
  refine ⟨[.int answer.callbackId] ++ ([.boolean answer.isSuccess] ++
    [.object answer.response]), ?_, ?_⟩
  · exact (writes_int _).seq ((writes_boolean _).seq (writes_object _))
  · exact (reads_int _).seq ((reads_boolean _).seq ((reads_object _).map _))

namespace ServerInvocationCustomFieldSerializer

/-- With an array it does what the others do. -/
theorem serialize_eq {call : Invocation V} (present : call.parameters ≠ none) :
    serialize call = writeInvocation call := by
  unfold serialize writeInvocation
  cases array : call.parameters with
  | none => exact absurd array present
  | some parameters => rfl

theorem serialize_null {call : Invocation V} (null : call.parameters = none) :
    Fails (serialize call) .nullPointerException := by
  unfold serialize
  rw [null]
  exact (writes_string _).seq_fails ((writes_int _).seq_fails (Fails.throw _))

end ServerInvocationCustomFieldSerializer

/-- An object of a wrapper class survives its serializers, among whatever else is in the
stream, unless it is a `ServerInvocation` without a parameter array. -/
theorem wrapper_frames_iff (wrapper : Wrapper V) : wrapper.Frames ↔ wrapper.HasArray := by
  cases wrapper with
  | remoteInvocation call =>
      exact iff_of_true (fun created => roundTrips_writeInvocation call created) trivial
  | clientInvocation call =>
      exact iff_of_true (fun created => roundTrips_writeInvocation call created) trivial
  | serverInvocation call =>
      constructor
      · intro frames null
        have fails := ServerInvocationCustomFieldSerializer.serialize_null null
        exact fails.not_roundTrips (frames call.toInvocation)
      · intro present created
        rw [ServerInvocationCustomFieldSerializer.serialize_eq present]
        exact roundTrips_writeInvocation call created
  | remoteCallbackInvocation answer =>
      exact iff_of_true (fun created => roundTrips_writeCallbackInvocation answer created) trivial
  | clientCallbackInvocation answer =>
      exact iff_of_true (fun created => roundTrips_writeCallbackInvocation answer created) trivial
  | serverCallbackInvocation answer =>
      exact iff_of_true (fun created => roundTrips_writeCallbackInvocation answer created) trivial

/-- `show(null)` for a method `void show(String[] names)` of a server. -/
def showNull : InvocationObject Nat where
  method := "show"
  parameters := none
  callbackId := 0
  length_lt := nofun

/-- The call never gets into the stream. -/
theorem server_show_null_refused :
    ServerInvocationCustomFieldSerializer.serialize showNull.toInvocation [] =
        .error .nullPointerException ∧
      ¬ (Wrapper.serverInvocation showNull).Frames := by
  have fails : Fails (ServerInvocationCustomFieldSerializer.serialize showNull.toInvocation)
      .nullPointerException := ServerInvocationCustomFieldSerializer.serialize_null rfl
  constructor
  · exact fails []
  · intro frames
    exact fails.not_roundTrips (frames showNull.toInvocation)

end WebbitGwt.Rpc
