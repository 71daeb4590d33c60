import WebbitGwt.Rpc.Callbacks

/-!
# `ServerImpl`

The client's view of the server.  A generated subclass turns each method of the
server interface into a call of `__sendMessage` and dispatches incoming
invocations in `__invoke`.  The serializer is a parameter: it yields the text to
send, or the message of a `SerializationException`.
-/

namespace WebbitGwt.Rpc.ServerImpl

open WebbitGwt.Java

universe u v w

variable {Cb : Type u} {V : Type v} {W : Type w}

/-- What is written in front of the object, by hand, to look like a call of a
remote service, and the object. -/
structure Request (V : Type v) where
  serviceInterface : String :=
    "com.colinalworth.gwt.websockets.shared.impl.DummyRemoteService"
  methodName : String
  parameterTypes : List String
  parameter : ServerMessage V
  deriving DecidableEq

/-- The `try` statement of `__sendMessage` and `__sendCallback`: a serialization
error is reported and thrown again, wrapped. -/
def transmit (serialize : Request V → Except String W) (request : Request V) :
    Transmission W :=
  match serialize request with
  | .ok message => { wire := some message }
  | .error message =>
      { reported := some (.serializationException message)
        thrown := some (Throwable.serializationException message).wrap }

/-- `__sendCallback` -/
def sendCallback (serialize : Request V → Except String W) (callbackId : JInt) (response : V)
    (isSuccess : Bool) : Transmission W :=
  transmit serialize
    { methodName := "callback"
      parameterTypes :=
        ["com.colinalworth.gwt.websockets.shared.impl.ServerCallbackInvocation"]
      parameter := .callback
        { callbackId := callbackId, response := response, isSuccess := isSuccess } }

/-- `__sendMessage`.  The callback is registered before the invocation is
serialized. -/
def sendMessage (serialize : Request V → Except String W) (table : CallbackTable Cb)
    (methodName : String) (callback : Option Cb) (params : Option (List V)) :
    CallbackTable Cb × Transmission W :=
  let (callbackId, registered) := table.registerNullable callback
  (registered, transmit serialize
    { methodName := "invoke"
      parameterTypes := ["com.colinalworth.gwt.websockets.shared.impl.ServerInvocation"]
      parameter := .invocation
        { method := methodName, parameters := params, callbackId := callbackId } })

/-- `__callback` -/
def callback (table : CallbackTable Cb) (callbackId : JInt) (response : V) (success : Bool) :
    CallbackTable Cb × Received Cb V :=
  table.receiveCallback callbackId response success

/-- `__onMessage` -/
def onMessage (table : CallbackTable Cb) (object : ClientMessage V) :
    CallbackTable Cb × Received Cb V :=
  table.receiveMessage (callback table) object

/-- A callback message that finds its callback. -/
theorem onMessage_callback_of_some {table : CallbackTable Cb} {answer : CallbackInvocation V}
    {target : Cb} (entry : table.callbacks answer.callbackId = some target) :
    onMessage table (.callback answer) =
      (table.remove answer.callbackId, .fire target answer.isSuccess answer.response) :=
  CallbackTable.receiveCallback_of_some entry answer.response answer.isSuccess

/-- One that finds none. -/
theorem onMessage_callback_of_none {table : CallbackTable Cb} {answer : CallbackInvocation V}
    (entry : table.callbacks answer.callbackId = none) :
    onMessage table (.callback answer) = (table, .ignored) :=
  CallbackTable.receiveCallback_of_none entry answer.response answer.isSuccess

/-- A use of the reply callback that `__onMessage` builds. -/
def useReply (serialize : Request V → Except String W) (callback : ReplyCallback)
    (success : Bool) (response : V) : ReplyCallback × Transmission W :=
  callback.use (sendCallback serialize) success response

end WebbitGwt.Rpc.ServerImpl
