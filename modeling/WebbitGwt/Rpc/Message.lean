import WebbitGwt.Java.Basic

/-!
# Wrapper messages

Each direction of a connection carries two kinds of objects: an invocation of a
method, and the use of a callback.  `ServerInvocation`, `ClientInvocation` and
`RemoteInvocation` have the same fields, and so have the three callback
invocations; the direction an object travels in tells them apart.

Wire values are a type parameter: the endpoints never look into them.
-/

namespace WebbitGwt.Rpc

open WebbitGwt.Java

universe u v

/-- A method call.  A callback id of zero says that no reply is expected.  The
parameter array is `none` where the sender passed a null reference. -/
structure Invocation (V : Type u) where
  method : String
  parameters : Option (List V)
  callbackId : JInt
  deriving DecidableEq

/-- The use of a callback. -/
structure CallbackInvocation (V : Type u) where
  callbackId : JInt
  response : V
  isSuccess : Bool
  deriving DecidableEq

abbrev ServerInvocation := @Invocation
abbrev ClientInvocation := @Invocation
abbrev RemoteInvocation := @Invocation
abbrev ServerCallbackInvocation := @CallbackInvocation
abbrev ClientCallbackInvocation := @CallbackInvocation
abbrev RemoteCallbackInvocation := @CallbackInvocation

/-- The objects one direction of a connection carries. -/
inductive Message (V : Type u)
  | invocation (call : Invocation V)
  | callback (answer : CallbackInvocation V)
  deriving DecidableEq

/-- What the server is sent: `ServerInvocation` or `ServerCallbackInvocation`. -/
abbrev ServerMessage := Message

/-- What the client is sent: `ClientInvocation` or `ClientCallbackInvocation`. -/
abbrev ClientMessage := Message

/-- What the other end of a worker's port is sent. -/
abbrev RemoteMessage := Message

/-- Deserialization creates the parameter array from its length, so a null array, which
`ClientInvocation` and `RemoteInvocation` write as length zero, arrives as an empty
one. -/
def Message.received {V : Type u} : Message V → Message V
  | .invocation call =>
      .invocation { call with parameters := some (call.parameters.getD []) }
  | .callback answer => .callback answer

/-- The same message about other values. -/
def Message.map {V : Type u} {W : Type v} (f : V → W) : Message V → Message W
  | .invocation call =>
      .invocation
        { method := call.method
          parameters := call.parameters.map (List.map f)
          callbackId := call.callbackId }
  | .callback answer =>
      .callback
        { callbackId := answer.callbackId
          response := f answer.response
          isSuccess := answer.isSuccess }

/-- The values in a message. -/
def Message.values {V : Type u} : Message V → List V
  | .invocation call => call.parameters.getD []
  | .callback answer => [answer.response]

theorem Message.received_map {V : Type u} {W : Type v} (f : V → W) (message : Message V) :
    (message.map f).received = message.received.map f := by
  rcases message with ⟨method, _ | parameters, callbackId⟩ | ⟨callbackId, response, isSuccess⟩ <;>
    rfl

@[simp]
theorem Message.values_received {V : Type u} (message : Message V) :
    message.received.values = message.values := by
  cases message <;> rfl

theorem Message.map_map {V W X : Type u} (f : V → W) (g : W → X) (message : Message V) :
    (message.map f).map g = message.map (g ∘ f) := by
  rcases message with ⟨method, _ | parameters, callbackId⟩ | ⟨callbackId, response, isSuccess⟩
  · rfl
  · simp only [Message.map, Option.map_some, List.map_map]
  · rfl

theorem Message.map_congr {V : Type u} {W : Type v} {f g : V → W} {message : Message V}
    (same : ∀ value ∈ message.values, f value = g value) : message.map f = message.map g := by
  rcases message with ⟨method, _ | parameters, callbackId⟩ | ⟨callbackId, response, isSuccess⟩
  · rfl
  · have sameParameters : parameters.map f = parameters.map g := List.map_congr_left same
    simp only [Message.map, Option.map_some, sameParameters]
  · have sameResponse : f response = g response := same response List.mem_cons_self
    simp only [Message.map, sameResponse]

/-- The reply callback that the receiver of an invocation builds around the
invocation's id.  It refuses to be used a second time. -/
structure ReplyCallback where
  callbackId : JInt
  fired : Bool := false
  deriving DecidableEq

/-- `checkFired`, which all three reply callbacks share. -/
def ReplyCallback.checkFired (callback : ReplyCallback) : Except Throwable ReplyCallback :=
  if callback.fired then
    .error (.illegalStateException "Callback already used, cannot be used again.")
  else
    .ok { callback with fired := true }

/-- An element of the argument array a method is invoked with. -/
inductive Argument (V : Type u)
  | value (value : V)
  | reply (callback : ReplyCallback)
  deriving DecidableEq

/-- The reply callback an argument is, if it is one. -/
def Argument.reply? {V : Type u} : Argument V → Option ReplyCallback
  | .value _ => none
  | .reply callback => some callback

/-- The argument array of an incoming invocation: the deserialized parameters,
followed by a reply callback when the invocation carries an id. -/
def Invocation.arguments {V : Type u} (invocation : Invocation V) (parameters : List V) :
    List (Argument V) :=
  parameters.map Argument.value ++
    if invocation.callbackId ≠ 0 then [.reply { callbackId := invocation.callbackId }] else []

theorem Invocation.filterMap_reply?_arguments {V : Type u} (invocation : Invocation V)
    (parameters : List V) :
    (invocation.arguments parameters).filterMap Argument.reply? =
      if invocation.callbackId ≠ 0 then [{ callbackId := invocation.callbackId }] else [] := by
  have noReplies : (parameters.map Argument.value).filterMap Argument.reply? = [] := by
    simp [List.filterMap_map, Function.comp_def, Argument.reply?]
  rw [Invocation.arguments, List.filterMap_append, noReplies]
  split <;> rfl

/-- What comes of handing a message to the transport: the message sent, the
exception reported to an error handler, the exception thrown to the caller. -/
structure Transmission (W : Type u) where
  wire : Option W := none
  reported : Option Throwable := none
  thrown : Option Throwable := none

/-- `onSuccess` and `onFailure` of a reply callback: mark it as fired, then send
the callback invocation. -/
def ReplyCallback.use {V : Type u} {W : Type v} (send : JInt → V → Bool → Transmission W)
    (callback : ReplyCallback) (success : Bool) (response : V) :
    ReplyCallback × Transmission W :=
  match callback.checkFired with
  | .ok marked => (marked, send marked.callbackId response success)
  | .error exception => (callback, { thrown := some exception })

theorem ReplyCallback.use_of_not_fired {V : Type u} {W : Type v}
    (send : JInt → V → Bool → Transmission W) {callback : ReplyCallback}
    (unused : callback.fired = false) (success : Bool) (response : V) :
    callback.use send success response =
      ({ callback with fired := true }, send callback.callbackId response success) := by
  simp [ReplyCallback.use, ReplyCallback.checkFired, unused]

theorem ReplyCallback.use_of_fired {V : Type u} {W : Type v}
    (send : JInt → V → Bool → Transmission W) {callback : ReplyCallback}
    (used : callback.fired = true) (success : Bool) (response : V) :
    callback.use send success response =
      (callback, { thrown := some (.illegalStateException
        "Callback already used, cannot be used again.") }) := by
  simp [ReplyCallback.use, ReplyCallback.checkFired, used]

end WebbitGwt.Rpc
