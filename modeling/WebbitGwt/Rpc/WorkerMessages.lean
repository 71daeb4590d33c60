import WebbitGwt.Rpc.Message
import WebbitGwt.Stream.ObjectGraph

/-!
# Messages between workers, with the objects in them

An endpoint creates a wrapper around the parameters of a call or the response of a
callback and hands it to `writeObject`.  The wrapper takes the first number of the
stream, its serializer is written by hand, and the objects in it are written after
it, so what two parameters share is shared at the other end.
-/

namespace WebbitGwt.Rpc.WorkerMessages

open WebbitGwt.Java
open WebbitGwt.Nio
open WebbitGwt.Graph
open WebbitGwt.Stream

/-- The classes with serializers written by hand. -/
inductive WrapperClass
  | remoteInvocation
  | remoteCallbackInvocation
  deriving DecidableEq

/-- The class of a message. -/
def wrapperClass {V : Type} : RemoteMessage V → WrapperClass
  | .invocation _ => .remoteInvocation
  | .callback _ => .remoteCallbackInvocation

/-- The serializer of an endpoint.  The generator makes both wrappers root types of it,
and generates no code for their fields. -/
structure EndpointSerializer (C : Type) extends Serializer C String where
  wrapper : WrapperClass → C
  signature : WrapperClass → String
  signature_injective : signature.Injective
  hasSignature : ∀ clazz, getSerializationSignature (wrapper clazz) = some (signature clazz)
  hasNoFields : ∀ clazz, shape (wrapper clazz) = .fields []

/-- What a sender refers to: the wrapper it has just created, and its objects, none of
which can refer to the wrapper. -/
inductive Sent (R : Type)
  | wrapper
  | object (object : R)
  deriving DecidableEq

theorem Sent.object_injective {R : Type} : (Sent.object (R := R)).Injective := by
  rintro first second ⟨⟩
  rfl

variable {C R : Type}

/-! ## Writing -/

section Write

variable (nativeOrder : ByteOrder)

/-- `serialize` of `RemoteInvocation_CustomFieldSerializer` -/
def serializeInvocation (writeObject : ObjectWriter String (Sent R) → Option (Sent R) →
      Except StreamException (ObjectWriter String (Sent R)))
    (writer : ObjectWriter String (Sent R)) (call : RemoteInvocation (Option (Sent R))) :
    Except StreamException (ObjectWriter String (Sent R)) := do
  let stream ← ofBuffer (StreamWriter.writeString nativeOrder writer.stream (some call.method))
  let stream ← ofBuffer (StreamWriter.writeInt nativeOrder stream call.callbackId)
  match call.parameters with
  | none => do
      let stream ← ofBuffer (StreamWriter.writeInt nativeOrder stream 0)
      return { writer with stream }
  | some parameters => do
      let stream ← ofBuffer (StreamWriter.writeInt nativeOrder stream
        (BitVec.ofNat 32 parameters.length))
      writeFields nativeOrder writeObject { writer with stream } (parameters.map .reference)

/-- `serialize` of `RemoteCallbackInvocation_CustomFieldSerializer` -/
def serializeCallbackInvocation (writeObject : ObjectWriter String (Sent R) → Option (Sent R) →
      Except StreamException (ObjectWriter String (Sent R)))
    (writer : ObjectWriter String (Sent R)) (answer : RemoteCallbackInvocation (Option (Sent R))) :
    Except StreamException (ObjectWriter String (Sent R)) := do
  let stream ← ofBuffer (StreamWriter.writeInt nativeOrder writer.stream answer.callbackId)
  let stream ← ofBuffer (StreamWriter.writeBoolean nativeOrder stream answer.isSuccess)
  writeObject { writer with stream } answer.response

variable (serializer : EndpointSerializer C)

/-- The objects of a sender and a wrapper, whose fields the serializer of its class
writes. -/
def withWrapper (clazz : WrapperClass) (heap : R → Node C String R) :
    Sent R → Node C String (Sent R)
  | .wrapper => .object (serializer.wrapper clazz) []
  | .object object => (heap object).map .object

variable [DecidableEq R] (heap : R → Node C String R)

/-- `writeObject` of a wrapper that has just been created, with a new writer. -/
def writeMessage (depth : Nat) (stream : StreamWriter String)
    (message : RemoteMessage (Option R)) :
    Except StreamException (ObjectWriter String (Sent R)) :=
  match depth with
  | 0 => throw .stackOverflow
  | depth + 1 => do
      let objectMap := [Sent.wrapper]
      let typeSignature := serializer.signature (wrapperClass message)
      let stream ← ofBuffer (StreamWriter.writeString nativeOrder stream (some typeSignature))
      let writeObject := writeObject nativeOrder serializer.toSerializer
        (withWrapper serializer (wrapperClass message) heap) depth
      match message.map (Option.map Sent.object) with
      | .invocation call => serializeInvocation nativeOrder writeObject { stream, objectMap } call
      | .callback answer =>
          serializeCallbackInvocation nativeOrder writeObject { stream, objectMap } answer

/-- The `try` block of `__sendMessage` and `__sendCallback`, up to `postMessage`. -/
def getWorkerData (depth : Nat) (message : RemoteMessage (Option R)) :
    Except StreamException (WorkerData String) := do
  let stream ← ofBuffer (StreamWriter.new nativeOrder)
  let writer ← writeMessage nativeOrder serializer heap depth stream message
  ofBuffer (StreamWriter.getWorkerData writer.stream)

end Write

/-! ## Reading -/

section Read

/-- The loop that fills the parameter array. -/
def readParameters (readObject : ObjectReader C String →
      Except StreamException (Option (Reference C) × ObjectReader C String))
    (reader : ObjectReader C String) : Nat →
      Except StreamException (List (Option (Reference C)) × ObjectReader C String)
  | 0 => .ok ([], reader)
  | count + 1 => do
      let (param, reader) ← readObject reader
      let (params, reader) ← readParameters readObject reader count
      return (param :: params, reader)

/-- `deserialize` of `RemoteInvocation_CustomFieldSerializer`.  `__invoke` throws on an
invocation without a method name, and the exception is swallowed, so there is no such
invocation here. -/
def deserializeInvocation (readObject : ObjectReader C String →
      Except StreamException (Option (Reference C) × ObjectReader C String))
    (reader : ObjectReader C String) :
    Except StreamException (Option (RemoteInvocation (Option (Reference C))) ×
      ObjectReader C String) := do
  let (method, stream) ← ofBuffer reader.stream.readString
  let (callbackId, stream) ← ofBuffer stream.readInt
  let (length, stream) ← ofBuffer stream.readInt
  if length.slt 0 then throw (.buffer .negativeArraySize)
  let (params, reader) ← readParameters readObject { reader with stream } length.toNat
  return (method.map fun method => { method, parameters := some params, callbackId }, reader)

/-- `deserialize` of `RemoteCallbackInvocation_CustomFieldSerializer` -/
def deserializeCallbackInvocation (readObject : ObjectReader C String →
      Except StreamException (Option (Reference C) × ObjectReader C String))
    (reader : ObjectReader C String) :
    Except StreamException (RemoteCallbackInvocation (Option (Reference C)) ×
      ObjectReader C String) := do
  let (callbackId, stream) ← ofBuffer reader.stream.readInt
  let (isSuccess, stream) ← ofBuffer stream.readBoolean
  let (response, reader) ← readObject { reader with stream }
  return ({ callbackId, response, isSuccess }, reader)

variable (nativeOrder : ByteOrder) (serializer : EndpointSerializer C)

/-- The wrapper class with a signature. -/
def wrapperOf (signature : Option String) : Option WrapperClass :=
  if signature = some (serializer.signature .remoteInvocation) then
    some .remoteInvocation
  else if signature = some (serializer.signature .remoteCallbackInvocation) then
    some .remoteCallbackInvocation
  else
    none

/-- `readObject` in `__onMessage`.  An object of another class makes the cast to
`RemoteCallbackInvocation` fail, which is swallowed; there is no message then. -/
def readMessage (depth : Nat) (reader : ObjectReader C String) :
    Except StreamException
      (Option (RemoteMessage (Option (Reference C))) × ObjectReader C String) := do
  let (token, stream) ← ofBuffer reader.stream.readInt
  match wrapperOf serializer (stream.getString token) with
  | none => do
      let (_, reader) ← readObject serializer.toSerializer depth reader
      return (none, reader)
  | some clazz =>
      match depth with
      | 0 => throw .stackOverflow
      | depth + 1 => do
          let (id, reader) := reserveDecodedObjectIndex { reader with stream }
          let object := Reference.object reader.objects.length
          let objects := reader.objects ++ [(serializer.wrapper clazz, [])]
          let reader := rememberDecodedObject { reader with objects } id object
          let readObject := readObject serializer.toSerializer depth
          match clazz with
          | .remoteInvocation => do
              let (call, reader) ← deserializeInvocation readObject reader
              return (call.map .invocation, reader)
          | .remoteCallbackInvocation => do
              let (answer, reader) ← deserializeCallbackInvocation readObject reader
              return (some (.callback answer), reader)

/-- The head of `__onMessage`: the reader for the data of an event, and the object in it. -/
def ofWorkerData (depth : Nat) (data : WorkerData String) :
    Except StreamException
      (Option (RemoteMessage (Option (Reference C))) × ObjectReader C String) := do
  let stream ← ofBuffer (StreamReader.ofWorkerData nativeOrder data)
  readMessage serializer depth { stream, seenArray := [], objects := [] }

end Read

/-! ## Both together -/

/-- The values in a message that are no parameters or responses. -/
def head {V : Type} : RemoteMessage V → List (Value String)
  | .invocation call =>
      [.string (some call.method), .int call.callbackId,
        .int (BitVec.ofNat 32 (call.parameters.getD []).length)]
  | .callback answer => [.int answer.callbackId, .boolean answer.isSuccess]

/-- A wrapper is written like an object with fields, as its signature and its fields. -/
theorem writeMessage_eq [DecidableEq R] (nativeOrder : ByteOrder)
    (serializer : EndpointSerializer C) (heap : R → Node C String R) (depth : Nat)
    (stream : StreamWriter String) (message : RemoteMessage (Option R)) :
    writeMessage nativeOrder serializer heap (depth + 1) stream message = (do
      let stream ← ofBuffer (StreamWriter.writeString nativeOrder stream
        (some (serializer.signature (wrapperClass message))))
      writeFields nativeOrder
        (writeObject nativeOrder serializer.toSerializer
          (withWrapper serializer (wrapperClass message) heap) depth)
        { stream, objectMap := [.wrapper] }
        ((head message).map .value ++
          (message.values.map .reference).map (Field.map Sent.object))) := by
  rcases message with ⟨method, _ | parameters, callbackId⟩ | ⟨callbackId, response, isSuccess⟩
  · rfl
  · have mapped : (parameters.map Field.reference).map (Field.map Sent.object) =
        (parameters.map (Option.map Sent.object)).map (Field.reference (V := Value String)) := by
      rw [List.map_map, List.map_map]
      rfl
    simp only [Message.values, Option.getD_some, mapped]
    simp only [writeMessage, Message.map, Option.map_some, serializeInvocation, List.length_map]
    rfl
  · have last (writer : ObjectWriter String (Sent R)) (target : Option (Sent R))
        (writeObject : ObjectWriter String (Sent R) → Option (Sent R) →
          Except StreamException (ObjectWriter String (Sent R))) :
        writeFields nativeOrder writeObject writer [.reference target] =
          writeObject writer target := bind_pure _
    simp only [writeMessage, Message.map, serializeCallbackInvocation, ← last]
    rfl

/-! ### The objects with the wrapper -/

variable {serializer : EndpointSerializer C}

/-- The memory of a sender. -/
def wrapped (clazz : WrapperClass) (heap : Heap serializer.toSerializer R) :
    Heap serializer.toSerializer (Sent R) where
  node := withWrapper serializer clazz heap.node
  conforms
    | .wrapper => .object (serializer.hasSignature clazz) (serializer.hasNoFields clazz)
    | .object object => (heap.conforms object).map _
  constant_unique := by
    have ofConstant (object : R) (clazz declaringClass : C) (ordinal : Nat)
        (isConstant : (heap.node object).map Sent.object =
          .constant clazz declaringClass ordinal) :
        heap.node object = .constant clazz declaringClass ordinal := by
      cases node_eq : heap.node object with
      | object type fields =>
          rw [node_eq] at isConstant
          cases isConstant
      | constant =>
          rw [node_eq] at isConstant
          cases isConstant
          rfl
    rintro (_ | first) (_ | second) firstClass secondClass declaringClass ordinal isFirst isSecond
    · rfl
    · cases isFirst
    · cases isSecond
    · rw [heap.constant_unique first second _ _ _ _ (ofConstant _ _ _ _ isFirst)
        (ofConstant _ _ _ _ isSecond)]

variable {heap : Heap serializer.toSerializer R} {message : RemoteMessage (Option R)}
  {tokens : List (Token (Value String) R)} {new : List R}

/-- The values that a message is written as. -/
def messageValues (heap : Heap serializer.toSerializer R) (message : RemoteMessage (Option R))
    (tokens : List (Token (Value String) R)) : List (Value String) :=
  .string (some (serializer.signature (wrapperClass message))) :: (head message ++
    (tokens.map (Token.map 1 Sent.object)).map (wrapped (wrapperClass message) heap).tokenValue)

variable [DecidableEq R]

/-- The objects of a message are listed behind the wrapper. -/
theorem listing_behind_wrapper (clazz : WrapperClass)
    (listing : Preorder heap.content [] (message.values.map .reference) tokens new) :
    Preorder (wrapped clazz heap).content [.wrapper]
      ((message.values.map .reference).map (Field.map Sent.object))
      (tokens.map (Token.map 1 Sent.object)) (new.map Sent.object) := by
  have apart : ∀ object : R, Sent.object object ∉ [Sent.wrapper] := nofun
  exact listing.map Sent.object_injective
    (fun object => Node.content_map _ (heap.node object)) apart

/-- Writing a message writes its values, on a stack that is one deeper. -/
theorem writeMessage_of_writeAll {nativeOrder : ByteOrder}
    (listing : Preorder heap.content [] (message.values.map .reference) tokens new) {depth : Nat}
    (deep : new.length ≤ depth) {stream next : StreamWriter String}
    (writes : StreamWriter.writeAll nativeOrder stream (messageValues heap message tokens) =
      .ok next) :
    writeMessage nativeOrder serializer heap.node (depth + 1) stream message =
      .ok { stream := next, objectMap := [Sent.wrapper] ++ new.map Sent.object } := by
  rcases bind_eq_ok.mp writes with ⟨middle, writesSignature, writes⟩
  have writesString : StreamWriter.writeString nativeOrder stream
      (some (serializer.signature (wrapperClass message))) = .ok middle := writesSignature
  have listed := (listing_behind_wrapper (wrapperClass message) listing).values (head message)
  have values : ((head message).map Token.value ++ tokens.map (Token.map 1 Sent.object)).map
        (wrapped (wrapperClass message) heap).tokenValue =
      head message ++ (tokens.map (Token.map 1 Sent.object)).map
        (wrapped (wrapperClass message) heap).tokenValue := by
    rw [List.map_append, List.map_map]
    congr 1
    exact List.map_id _
  rw [← values] at writes
  rw [writeMessage_eq, writesString, ofBuffer_ok, ok_bind]
  exact writes_preorder listed (by rwa [List.length_map]) writes

/-- The words of a message. -/
theorem width_messageValues
    (listing : Preorder heap.content [] (message.values.map .reference) tokens new) :
    ((messageValues heap message tokens).map fun value => value.kind.width).sum =
      1 + (head message).length + (message.values.length + (new.map heap.width).sum) := by
  have headWidth : ((head message).map fun value => value.kind.width).sum =
      (head message).length := by
    cases message <;> rfl
  have tokenWidth : (((tokens.map (Token.map 1 Sent.object)).map
      (wrapped (wrapperClass message) heap).tokenValue).map fun value => value.kind.width) =
      (tokens.map heap.tokenValue).map fun value => value.kind.width := by
    rw [List.map_map, List.map_map, List.map_map]
    apply List.map_congr_left
    intro token _
    simp only [Function.comp_apply, Heap.width_tokenValue, Token.weight_map]
  rw [messageValues, List.map_cons, List.map_append, List.sum_cons, List.sum_append, headWidth,
    tokenWidth, Heap.width_listing listing]
  simp only [Value.kind, Kind.width]
  omega

/-! ### Reading a message -/

section Tokens

omit [DecidableEq R]

variable {stream next : StreamReader String}

theorem readString_of_read {value : Option String}
    (reads : stream.read .string = .ok (.string value, next)) :
    stream.readString = .ok (value, next) := by
  rcases bind_eq_ok.mp reads with ⟨⟨first, middle⟩, readsString, same⟩
  cases same
  exact readsString

theorem readBoolean_of_read {value : Bool}
    (reads : stream.read .boolean = .ok (.boolean value, next)) :
    stream.readBoolean = .ok (value, next) := by
  rcases bind_eq_ok.mp reads with ⟨⟨first, middle⟩, readsBoolean, same⟩
  cases same
  exact readsBoolean

/-- The loop reads what fields of the same number would hold. -/
theorem readParameters_of_readFields {readObject : ObjectReader C String →
      Except StreamException (Option (Reference C) × ObjectReader C String)}
    {reader last : ObjectReader C String} {targets : List (Option (Reference C))}
    (reads : readFields readObject reader (List.replicate targets.length .object) =
      .ok (targets.map .reference, last)) :
    readParameters readObject reader targets.length = .ok (targets, last) := by
  induction targets generalizing reader with
  | nil =>
      cases reads
      rfl
  | cons target targets ih =>
      rcases bind_eq_ok.mp reads with ⟨⟨first, middle⟩, readsFirst, reads⟩
      rcases bind_eq_ok.mp reads with ⟨⟨rest, reader⟩, readsRest, same⟩
      cases same
      simp only [List.length_cons, readParameters, readsFirst, ok_bind, ih readsRest]
      rfl

theorem wrapperOf_signature (clazz : WrapperClass) :
    wrapperOf serializer (some (serializer.signature clazz)) = some clazz := by
  cases clazz with
  | remoteInvocation => exact if_pos rfl
  | remoteCallbackInvocation =>
      have different : some (serializer.signature .remoteCallbackInvocation) ≠
          some (serializer.signature .remoteInvocation) := by
        intro same
        cases serializer.signature_injective (Option.some.inj same)
      rw [wrapperOf, if_neg different, if_pos rfl]

theorem deserializeInvocation_of_readParameters {call : RemoteInvocation (Option R)}
    {readObject : ObjectReader C String →
      Except StreamException (Option (Reference C) × ObjectReader C String)}
    {reader last : ObjectReader C String} {targets : List (Option (Reference C))}
    (bounded : (call.parameters.getD []).length < 2 ^ 31)
    (givesHead : Gives reader.stream (head (.invocation call)) next)
    (readsTargets : readParameters readObject { reader with stream := next }
      (call.parameters.getD []).length = .ok (targets, last)) :
    deserializeInvocation readObject reader =
      .ok (some { method := call.method, parameters := some targets,
                  callbackId := call.callbackId }, last) := by
  rcases gives_cons.mp givesHead with ⟨afterMethod, readsMethod, givesHead⟩
  rcases gives_cons.mp givesHead with ⟨afterId, readsId, givesHead⟩
  rcases gives_cons.mp givesHead with ⟨afterLength, readsLength, ⟨⟩⟩
  have notNegative : (BitVec.ofNat 32 (call.parameters.getD []).length).slt 0 = false := by
    rw [BitVec.slt, toInt_ofNat_of_lt bounded]
    simp
  rw [deserializeInvocation]
  simp only [readString_of_read readsMethod, readInt_of_read readsId, readInt_of_read readsLength,
    ofBuffer_ok, ok_bind, notNegative, toNat_ofNat_of_lt bounded, readsTargets]
  rfl

theorem deserializeCallbackInvocation_of_readObject
    {answer : RemoteCallbackInvocation (Option R)}
    {readObject : ObjectReader C String →
      Except StreamException (Option (Reference C) × ObjectReader C String)}
    {reader last : ObjectReader C String} {target : Option (Reference C)}
    (givesHead : Gives reader.stream (head (.callback answer)) next)
    (readsTarget : readObject { reader with stream := next } = .ok (target, last)) :
    deserializeCallbackInvocation readObject reader =
      .ok ({ callbackId := answer.callbackId, response := target,
             isSuccess := answer.isSuccess }, last) := by
  rcases gives_cons.mp givesHead with ⟨afterId, readsId, givesHead⟩
  rcases gives_cons.mp givesHead with ⟨afterSuccess, readsSuccess, ⟨⟩⟩
  rw [deserializeCallbackInvocation]
  simp only [readInt_of_read readsId, readBoolean_of_read readsSuccess, ofBuffer_ok, ok_bind,
    readsTarget]
  rfl

/-- A reader that has created a wrapper. -/
def created (serializer : EndpointSerializer C) (clazz : WrapperClass)
    (stream : StreamReader String) : ObjectReader C String where
  stream := stream
  seenArray := [some (.object 0)]
  objects := [(serializer.wrapper clazz, [])]

/-- A message is read if the objects after its head are. -/
theorem readMessage_of_readParameters {message : RemoteMessage (Option R)} {depth : Nat}
    {values : List (Value String)} (bounded : message.values.length < 2 ^ 31)
    (gives : Gives stream (.string (some (serializer.signature (wrapperClass message))) ::
      (head message ++ values)) next) :
    ∃ middle, Gives middle values next ∧
      ∀ (rename : R → Reference C) (last : ObjectReader C String),
        readParameters (readObject serializer.toSerializer depth)
            (created serializer (wrapperClass message) middle) message.values.length =
          .ok (message.values.map (Option.map rename), last) →
        readMessage serializer (depth + 1) { stream, seenArray := [], objects := [] } =
          .ok (some (message.received.map (Option.map rename)), last) := by
  rcases gives_cons.mp gives with ⟨afterSignature, reads, gives⟩
  rcases readInt_of_readString reads with ⟨index, readsInt, isSignature⟩
  rcases gives_append.mp gives with ⟨middle, givesHead, givesValues⟩
  refine ⟨middle, givesValues, ?_⟩
  intro rename last readsValues
  rw [readMessage]
  simp only [readsInt, ofBuffer_ok, ok_bind, isSignature, wrapperOf_signature]
  cases message with
  | invocation call =>
      have givesHead : Gives (created serializer .remoteInvocation afterSignature).stream
        (head (.invocation call)) middle := givesHead
      have deserializes := deserializeInvocation_of_readParameters bounded givesHead readsValues
      simp only [wrapperClass]
      change (deserializeInvocation (readObject serializer.toSerializer depth)
        (created serializer .remoteInvocation afterSignature) >>= _) = _
      rw [deserializes]
      rfl
  | callback answer =>
      rcases bind_eq_ok.mp readsValues with ⟨⟨target, after⟩, readsTarget, same⟩
      cases same
      have givesHead : Gives (created serializer .remoteCallbackInvocation afterSignature).stream
        (head (.callback answer)) middle := givesHead
      have deserializes := deserializeCallbackInvocation_of_readObject givesHead readsTarget
      simp only [wrapperClass]
      change (deserializeCallbackInvocation (readObject serializer.toSerializer depth)
        (created serializer .remoteCallbackInvocation afterSignature) >>= _) = _
      rw [deserializes]
      rfl

end Tokens

omit [DecidableEq R] in
/-- What was rebuilt behind a wrapper, and the wrapper. -/
theorem rebuilt_wrapper {clazz : WrapperClass} {newReferences : List (Reference C)}
    {newObjects : List (C × List (Field (Value String) (Reference C)))}
    (rebuilt : Rebuilt (wrapped clazz heap) [.wrapper] (new.map Sent.object) [.object 0]
      newReferences 1 newObjects) :
    Rebuilt (wrapped clazz heap) [] (.wrapper :: new.map Sent.object) [] (.object 0 :: newReferences)
      0 ((serializer.wrapper clazz, []) :: newObjects) := by
  have represents : Represents 0 [(serializer.wrapper clazz, [])]
      (Met ([] ++ [.wrapper] ++ new.map Sent.object) ([] ++ [.object 0] ++ newReferences))
      ((wrapped clazz heap).node .wrapper) (.object (0 + 0)) := .object rfl .nil
  have rest : Rebuilt (wrapped clazz heap) ([] ++ [.wrapper] ++ new.map Sent.object) []
      ([] ++ [.object 0] ++ newReferences) []
      (0 + ([(serializer.wrapper clazz, [])] ++ newObjects).length) [] := ⟨rfl, rfl, nofun⟩
  have whole : Rebuilt (wrapped clazz heap) [] (.wrapper :: (new.map Sent.object ++ [])) []
      (.object 0 :: (newReferences ++ [])) 0
      ([(serializer.wrapper clazz, [])] ++ newObjects ++ []) :=
    .node rfl rfl represents rebuilt rest
  rw [List.append_nil, List.append_nil, List.append_nil] at whole
  exact whole

/-- The objects in a message are copied. -/
theorem readMessage_copy
    (listing : Preorder heap.content [] (message.values.map .reference) tokens new) {depth : Nat}
    (deep : new.length ≤ depth) (bounded : 1 + new.length < 2 ^ 31)
    (valuesBounded : message.values.length < 2 ^ 31) {stream next : StreamReader String}
    (gives : Gives stream (messageValues heap message tokens) next) :
    ∃ last rename,
      readMessage serializer (depth + 1) { stream, seenArray := [], objects := [] } =
        .ok (some (message.received.map (Option.map rename)), last) ∧
      IsCopy heap message.values last
        (message.values.map fun value => .reference (value.map rename)) rename := by
  obtain ⟨middle, givesValues, reads⟩ := readMessage_of_readParameters valuesBounded gives
  have listed := listing_behind_wrapper (wrapperClass message) listing
  have deepEnough : (new.map Sent.object).length ≤ depth := by rwa [List.length_map]
  have enough : ([Sent.wrapper] ++ new.map Sent.object).length < 2 ^ 31 := by
    rwa [List.length_append, List.length_singleton, List.length_map]
  obtain ⟨results, newReferences, newObjects, readsResults, rel, rebuilt⟩ :=
    reads_preorder listed deepEnough enough givesValues [.object 0] rfl
      [(serializer.wrapper (wrapperClass message), [])]
  have whole := rebuilt_wrapper rebuilt
  have distinct : (Sent.wrapper :: new.map Sent.object).Nodup := listed.nodup (by simp)
  let objectMap := Sent.wrapper :: new.map Sent.object
  let references := Reference.object 0 :: newReferences
  let rename := referenceOf objectMap references
  have functional : ∀ object reference, Met objectMap references object reference →
      reference = rename object :=
    fun object reference met => Met.eq_referenceOf distinct met
  have isMet (object : R) (isReachable : Reachable heap.content message.values object) :
      Sent.object object ∈ objectMap :=
    List.mem_cons_of_mem _ (List.mem_map_of_mem (listing.mem_new_iff.mpr isReachable))
  have results_eq : results =
      (message.values.map (Option.map (rename ∘ Sent.object))).map .reference := by
    rw [Field.Rel.eq_map rel functional, List.map_map, List.map_map, List.map_map]
    apply List.map_congr_left
    intro value _
    simp only [Function.comp_apply, Field.map, Option.map_map]
  have kinds : ((message.values.map (Field.reference (V := Value String))).map
        (Field.map Sent.object)).map fieldKind =
      List.replicate (message.values.map (Option.map (rename ∘ Sent.object))).length
        .object := by
    rw [List.map_map, List.map_map, List.length_map]
    exact List.map_const'
  rw [results_eq, kinds] at readsResults
  have readsParameters := readParameters_of_readFields readsResults
  rw [List.length_map] at readsParameters
  let last : ObjectReader C String :=
    { stream := next
      seenArray := references.map some
      objects := (serializer.wrapper (wrapperClass message), []) :: newObjects }
  refine ⟨last, rename ∘ Sent.object, reads _ _ readsParameters, rfl, ?_, ?_⟩
  · intro object isReachable
    have met := met_referenceOf whole.length_eq (isMet object isReachable)
    have node : last.node serializer.toSerializer (rename (.object object)) =
        some (((wrapped (wrapperClass message) heap).node (.object object)).map rename) :=
      node_of_represents (whole.represents _ _ met) functional
    exact node.trans (congrArg some (Node.map_map _ _ _))
  · intro first second isFirst isSecond
    constructor
    · intro same
      exact Sent.object_injective
        (whole.injective (isMet first isFirst) (isMet second isSecond) same)
    · rintro rfl
      rfl

/-! ### Whole messages -/

/-- The words of a message: its signature, its own fields, a word for each object that it
refers to, and the objects that can be reached. -/
def width [Fintype R] (heap : Heap serializer.toSerializer R)
    (message : RemoteMessage (Option R))
    [DecidablePred (Reachable heap.content message.values)] : Nat :=
  1 + (head message).length + (message.values.length +
    ∑ object with Reachable heap.content message.values object, heap.width object)

/-- A message that fits into a buffer is sent, and the other end gets it with a copy of
all objects in it: whatever the parameters share they share there, and a null array has
become an empty one. -/
theorem message_round_trip [Fintype R] (nativeOrder : ByteOrder)
    (serializer : EndpointSerializer C) (heap : Heap serializer.toSerializer R)
    (message : RemoteMessage (Option R))
    [DecidablePred (Reachable heap.content message.values)]
    (inRange : 3 + width heap message ≤ 2 ^ 28) (depth : Nat) (deep : Fintype.card R < depth) :
    ∃ data last rename,
      getWorkerData nativeOrder serializer heap.node depth message = .ok data ∧
      ofWorkerData nativeOrder serializer depth data =
        .ok (some (message.received.map (Option.map rename)), last) ∧
      IsCopy heap message.values last
        (message.values.map fun value => .reference (value.map rename)) rename := by
  obtain ⟨tokens, new, listing⟩ :=
    Preorder.exists_listing heap.content List.nodup_nil (message.values.map .reference)
  have distinct : new.Nodup := listing.nodup List.nodup_nil
  have reachable : new.toFinset =
      Finset.univ.filter (Reachable heap.content message.values) := by
    ext object
    rw [List.mem_toFinset, listing.mem_new_iff, Finset.mem_filter_univ]
  have words := width_messageValues listing
  rw [← List.sum_toFinset heap.width distinct, reachable] at words
  have wordCount : 3 + ((messageValues heap message tokens).map
      fun value => value.kind.width).sum ≤ 2 ^ 28 := words ▸ inRange
  obtain ⟨fresh, stream, data, reader, spare, creates, writes, sends, receives, _, feeds, strings,
    stringsBounded⟩ := worker_feeds nativeOrder wordCount
  rcases feeds.readAll_encodeAll strings stringsBounded with ⟨next, gives⟩
  cases depth with
  | zero => omega
  | succ depth =>
      have deepEnough : new.length ≤ depth :=
        Nat.le_trans distinct.length_le_card (Nat.le_of_lt_succ deep)
      have bounded : 1 + new.length < 2 ^ 31 := by
        have nodeCount := listing.length_new_le
        have tokenCount := List.length_le_sum_of_one_le ((messageValues heap message tokens).map
          fun value => value.kind.width) ?_
        · simp only [messageValues, List.length_map, List.length_cons, List.length_append]
            at tokenCount wordCount
          omega
        · intro width member
          rcases List.mem_map.mp member with ⟨value, _, rfl⟩
          exact value.kind.width_pos
      have valuesBounded : message.values.length < 2 ^ 31 := by
        unfold width at inRange
        omega
      obtain ⟨last, rename, reads, isCopy⟩ :=
        readMessage_copy listing deepEnough bounded valuesBounded gives
      refine ⟨data, last, rename, ?_, ?_, isCopy⟩
      · simp only [getWorkerData, creates, ofBuffer_ok, ok_bind,
          writeMessage_of_writeAll listing deepEnough writes, sends]
      · simp only [ofWorkerData, receives, ofBuffer_ok, ok_bind, reads]

end WebbitGwt.Rpc.WorkerMessages
