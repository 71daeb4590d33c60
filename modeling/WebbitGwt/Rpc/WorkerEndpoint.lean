import WebbitGwt.Rpc.Callbacks

/-!
# `AbstractWorkerEndpointImpl`

One end of a message port.  The bookkeeping of callbacks is the one of
`ServerImpl`; a serialization error, however, is swallowed.
-/

namespace WebbitGwt.Rpc.WorkerEndpoint

open WebbitGwt.Java

universe u v w

variable {Cb : Type u} {V : Type v} {W : Type w}

/-- The `try` statement of `__sendMessage` and `__sendCallback`. -/
def postMessage (serialize : RemoteMessage V → Except String W) (object : RemoteMessage V) :
    Transmission W :=
  match serialize object with
  | .ok workerData => { wire := some workerData }
  | .error _ => {}

/-- `__sendCallback` -/
def sendCallback (serialize : RemoteMessage V → Except String W) (callbackId : JInt)
    (response : V) (isSuccess : Bool) : Transmission W :=
  postMessage serialize (.callback
    { callbackId := callbackId, response := response, isSuccess := isSuccess })

/-- `__sendMessage` -/
def sendMessage (serialize : RemoteMessage V → Except String W) (table : CallbackTable Cb)
    (methodName : String) (callback : Option Cb) (params : Option (List V)) :
    CallbackTable Cb × Transmission W :=
  let (callbackId, registered) := table.registerNullable callback
  (registered, postMessage serialize (.invocation
    { method := methodName, parameters := params, callbackId := callbackId }))

/-- `__callback` -/
def callback (table : CallbackTable Cb) (callbackId : JInt) (response : V) (success : Bool) :
    CallbackTable Cb × Received Cb V :=
  table.receiveCallback callbackId response success

/-- `__onMessage`.  Whatever `__invoke` or a callback throws is swallowed. -/
def onMessage (table : CallbackTable Cb) (object : RemoteMessage V) :
    CallbackTable Cb × Received Cb V :=
  table.receiveMessage (callback table) object

/-- A callback message that finds its callback. -/
theorem onMessage_callback_of_some {table : CallbackTable Cb} {answer : CallbackInvocation V}
    {target : Cb} (entry : table.callbacks answer.callbackId = some target) :
    onMessage table (.callback answer) =
      (table.remove answer.callbackId, .fire target answer.isSuccess answer.response) :=
  CallbackTable.receiveCallback_of_some entry answer.response answer.isSuccess

/-- One that finds none. -/
theorem onMessage_callback_of_none {table : CallbackTable Cb} {answer : CallbackInvocation V}
    (entry : table.callbacks answer.callbackId = none) :
    onMessage table (.callback answer) = (table, .ignored) :=
  CallbackTable.receiveCallback_of_none entry answer.response answer.isSuccess

/-- A use of the reply callback that `__onMessage` builds. -/
def useReply (serialize : RemoteMessage V → Except String W) (callback : ReplyCallback)
    (success : Bool) (response : V) : ReplyCallback × Transmission W :=
  callback.use (sendCallback serialize) success response

end WebbitGwt.Rpc.WorkerEndpoint
