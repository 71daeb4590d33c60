import WebbitGwt.Rpc.Callbacks

/-!
# `RpcEndpoint`

The server's end of a connection.  Calls to the client go through a dynamic proxy
whose handler is `IH`; incoming invocations are looked up by name among the
public methods of the server object and invoked reflectively.
-/

namespace WebbitGwt.Rpc

open WebbitGwt.Java

universe u v w

/-- What the endpoint reads of a `java.lang.reflect.Method`. -/
structure Method where
  name : String
  declaringClass : String
  parameterTypes : List String
  returnType : String
  deriving DecidableEq

namespace RpcEndpoint

variable {Cb : Type u} {V : Type v} {W : Type w}

/-- The fields that change over the life of an endpoint. -/
structure State (Cb : Type u) where
  callbackTable : CallbackTable Cb
  cachedMethods : String → Option Method

/-- The field initializers. -/
def State.new : State Cb where
  callbackTable := .new
  cachedMethods := fun _ => none

/-- `callback`: send the use of a reply callback to the client. -/
def sendCallback (encodeResponse : ClientMessage V → Except String W) (callbackId : JInt)
    (response : V) (isSuccess : Bool) : Transmission W :=
  match encodeResponse (.callback
      { callbackId := callbackId, response := response, isSuccess := isSuccess }) with
  | .ok message => { wire := some message }
  | .error message =>
      { thrown := some (.runtimeException
          ("Failed to send callback to client, " ++
            (Throwable.serializationException message).toString)) }

/-- A use of the reply callback that `addCallbackToArgs` builds. -/
def useReply (encodeResponse : ClientMessage V → Except String W) (callback : ReplyCallback)
    (success : Bool) (response : V) : ReplyCallback × Transmission W :=
  callback.use (sendCallback encodeResponse) success response

/-- The lookup of `handleMessage`, under the lock on `cachedMethods`: the first
public method of the server's class that has the name is taken, and remembered. -/
def lookup (methods : List Method) (state : State Cb) (name : String) :
    Option Method × State Cb :=
  match state.cachedMethods name with
  | some method => (some method, state)
  | none =>
      match methods.find? fun method => method.name == name with
      | none => (none, state)
      | some method =>
          (some method,
            { state with
              cachedMethods := Function.update state.cachedMethods name (some method) })

/-- What an incoming object makes the server do.  A reflective call on a method
that was not found is a call on a null reference. -/
inductive Handled (Cb : Type u) (V : Type v)
  | invoke (method : Option Method) (args : List (Argument V))
  | fire (callback : Cb) (success : Bool) (response : V)
  | ignored

/-- `handleMessage`, on the decoded object, up to the call of user code. -/
def handleMessage (methods : List Method) (state : State Cb) :
    ServerMessage V → State Cb × Handled Cb V
  | .callback callbackInvoke =>
      match state.callbackTable.answer callbackInvoke.callbackId with
      | (some callback, answered) =>
          ({ state with callbackTable := answered },
            .fire callback callbackInvoke.isSuccess callbackInvoke.response)
      | (none, unchanged) => ({ state with callbackTable := unchanged }, .ignored)
  | .invocation invoke =>
      let (method, cached) := lookup methods state invoke.method
      (cached, .invoke method (invoke.arguments (invoke.parameters.getD [])))

theorem handleMessage_callback_of_some {methods : List Method} {state : State Cb}
    {answer : ServerCallbackInvocation V} {target : Cb}
    (entry : state.callbackTable.callbacks answer.callbackId = some target) :
    handleMessage methods state (.callback answer) =
      ({ state with callbackTable := state.callbackTable.remove answer.callbackId },
        .fire target answer.isSuccess answer.response) := by
  rw [handleMessage, CallbackTable.answer_of_some entry]

theorem handleMessage_callback_of_none {methods : List Method} {state : State Cb}
    {answer : ServerCallbackInvocation V}
    (entry : state.callbackTable.callbacks answer.callbackId = none) :
    handleMessage methods state (.callback answer) = (state, .ignored) := by
  rw [handleMessage, CallbackTable.answer_of_none entry]

@[simp]
theorem lookup_callbackTable (methods : List Method) (state : State Cb) (name : String) :
    (lookup methods state name).2.callbackTable = state.callbackTable := by
  unfold lookup
  split
  · rfl
  · split <;> rfl

theorem handleMessage_invocation (methods : List Method) (state : State Cb)
    (invoke : ServerInvocation V) :
    handleMessage methods state (.invocation invoke) =
      ((lookup methods state invoke.method).2,
        .invoke (lookup methods state invoke.method).1
          (invoke.arguments (invoke.parameters.getD []))) := rfl

namespace IH

/-- The argument array of a proxy call.  The proxy passes a null reference for a
method without parameters; a method whose last parameter is a `Callback` is
passed one in the last place. -/
inductive ProxyArgs (V : Type v) (Cb : Type u)
  | plain (args : Option (List V))
  | withCallback (args : List V) (callback : Cb)

/-- The declared type of the last parameter is `Callback`. -/
def hasCallback (method : Method) : Bool :=
  method.parameterTypes.getLast? == some "com.google.gwt.core.client.Callback"

/-- The part of `invoke` that sends nothing: methods of `Object` are called on the
handler, bookkeeping methods of `Client` and methods with a result are refused. -/
def refusal (method : Method) : Option Throwable :=
  if method.declaringClass = "com.colinalworth.gwt.websockets.shared.Client" then
    some (.illegalStateException
      "This method is only intended to be called on the client itself")
  else if method.returnType ≠ "void" ∧ method.returnType ≠ "java.lang.Void" then
    some (.illegalArgumentException "Calls to client must be of return type Void")
  else
    none

/-- The last part of `invoke`: build the invocation, encode and send it.  A
`SerializationException` is passed on. -/
def send (encodeResponse : ClientMessage V → Except String W) (method : Method)
    (actualArgs : Option (List V)) (callbackId : JInt) : Transmission W :=
  match encodeResponse (.invocation
      { method := method.name, parameters := actualArgs, callbackId := callbackId }) with
  | .ok message => { wire := some message }
  | .error message => { thrown := some (.serializationException message) }

/-- `IH.invoke` without interruption, for a method that is not declared in
`Object`.  An argument array that does not fit the method cannot come from the
proxy; the cast to `Callback` would fail. -/
def invoke (encodeResponse : ClientMessage V → Except String W) (state : State Cb)
    (method : Method) (args : ProxyArgs V Cb) : State Cb × Transmission W :=
  match refusal method with
  | some exception => (state, { thrown := some exception })
  | none =>
      match hasCallback method, args with
      | true, .withCallback args callback =>
          let (callbackId, registered) := state.callbackTable.register callback
          ({ state with callbackTable := registered },
            send encodeResponse method (some args) callbackId)
      | false, .plain args => (state, send encodeResponse method args 0)
      | _, _ => (state, { thrown := some .classCastException })

end IH

end RpcEndpoint

end WebbitGwt.Rpc
