import WebbitGwt.Rpc.RpcEndpoint
import WebbitGwt.Rpc.ServerImpl
import WebbitGwt.Rpc.WorkerEndpoint

/-!
# Uses of a reply callback

A reply callback may be used once.  It is marked before the reply is serialized, and
the mark stays when that fails: `ServerImpl` and `RpcEndpoint` throw, the worker
endpoint says nothing, and in all three no later use is let through.
-/

namespace WebbitGwt.Rpc

open WebbitGwt.Java

universe u v

variable {V : Type u} {W : Type v}

/-- A call of `onSuccess` or `onFailure` on a reply callback. -/
structure ReplyUse (V : Type u) where
  isSuccess : Bool
  response : V

/-- The object that the use of a callback is to put on the wire. -/
def ReplyUse.invocation (use : ReplyUse V) (callbackId : JInt) : CallbackInvocation V where
  callbackId := callbackId
  response := use.response
  isSuccess := use.isSuccess

/-- What comes of the uses of one reply callback, one after the other. -/
def ReplyCallback.useAll (useReply : ReplyCallback → Bool → V → ReplyCallback × Transmission W) :
    ReplyCallback → List (ReplyUse V) → List (Transmission W)
  | _, [] => []
  | callback, use :: later =>
      (useReply callback use.isSuccess use.response).2 ::
        useAll useReply (useReply callback use.isSuccess use.response).1 later

/-- The use was rejected with an `IllegalStateException`. -/
def Transmission.rejected (outcome : Transmission W) : Bool :=
  match outcome.thrown with
  | some (.illegalStateException _) => true
  | _ => false

/-- What comes of a use that `checkFired` rejects. -/
def ReplyCallback.rejection : Transmission W where
  thrown := some (.illegalStateException "Callback already used, cannot be used again.")

/-- A callback is spent by its first use: that use sends the callback message if it
can be serialized, every later one is rejected and sends nothing. -/
structure SpentByFirstUse (encode : CallbackInvocation V → Except String W) (callbackId : JInt)
    (uses : List (ReplyUse V)) (outcomes : List (Transmission W)) : Prop where
  wire : outcomes.map Transmission.wire = uses.mapIdx fun position use =>
    if position = 0 then (encode (use.invocation callbackId)).toOption else none
  rejected : outcomes.map Transmission.rejected = uses.mapIdx fun position _ =>
    decide (0 < position)

/-- A callback is spent by a reply: the first use that can be serialized sends the
callback message, and a use is rejected only after a message was sent. -/
structure SpentByReply (encode : CallbackInvocation V → Except String W) (callbackId : JInt)
    (uses : List (ReplyUse V)) (outcomes : List (Transmission W)) : Prop where
  wire : outcomes.filterMap Transmission.wire =
    (uses.findSome? fun use => (encode (use.invocation callbackId)).toOption).toList
  rejected : ∀ earlier outcome later, outcomes = earlier ++ outcome :: later →
    outcome.rejected → earlier.filterMap Transmission.wire ≠ []

/-- Once a callback is marked, every use of it is rejected. -/
theorem ReplyCallback.useAll_of_fired (send : JInt → V → Bool → Transmission W)
    {callback : ReplyCallback} (fired : callback.fired = true) (uses : List (ReplyUse V)) :
    callback.useAll (fun callback => callback.use send) uses =
      List.replicate uses.length rejection := by
  induction uses with
  | nil => rfl
  | cons use later ih =>
      rw [useAll, use_of_fired send fired, ih, List.length_cons, List.replicate_succ]
      rfl

/-- The first use is let through to `send`. -/
theorem ReplyCallback.useAll_cons (send : JInt → V → Bool → Transmission W) (callbackId : JInt)
    (use : ReplyUse V) (later : List (ReplyUse V)) :
    useAll (fun callback => callback.use send) { callbackId := callbackId } (use :: later) =
      send callbackId use.response use.isSuccess ::
        List.replicate later.length rejection := by
  rw [useAll, use_of_not_fired send rfl]
  rw [useAll_of_fired send rfl]

/-- Whatever sends the replies, and whatever it makes of a serialization error, if
that is not an `IllegalStateException`. -/
theorem ReplyCallback.spentByFirstUse {send : JInt → V → Bool → Transmission W}
    {encode : CallbackInvocation V → Except String W} {callbackId : JInt}
    (wire_eq : ∀ use : ReplyUse V, (send callbackId use.response use.isSuccess).wire =
      (encode (use.invocation callbackId)).toOption)
    (not_rejected : ∀ use : ReplyUse V,
      (send callbackId use.response use.isSuccess).rejected = false)
    (uses : List (ReplyUse V)) :
    SpentByFirstUse encode callbackId uses
      (useAll (fun callback => callback.use send) { callbackId := callbackId } uses) := by
  cases uses with
  | nil => exact ⟨rfl, rfl⟩
  | cons use later =>
      rw [useAll_cons]
      constructor
      · rw [List.map_cons, List.map_replicate, wire_eq, List.mapIdx_cons, if_pos rfl]
        apply congrArg
        symm
        rw [List.mapIdx_eq_replicate_iff]
        intro position _
        exact if_neg (Nat.succ_ne_zero position)
      · rw [List.map_cons, List.map_replicate, not_rejected, List.mapIdx_cons]
        apply congrArg
        symm
        rw [List.mapIdx_eq_replicate_iff]
        intro position _
        exact decide_eq_true (Nat.succ_pos position)

/-- The request in which `__sendCallback` of `ServerImpl` sends a callback invocation. -/
def ServerImpl.callbackRequest (answer : ServerCallbackInvocation V) : ServerImpl.Request V where
  methodName := "callback"
  parameterTypes := ["com.colinalworth.gwt.websockets.shared.impl.ServerCallbackInvocation"]
  parameter := .callback answer

theorem ServerImpl.sendCallback_spec (serialize : ServerImpl.Request V → Except String W)
    (callbackId : JInt) (use : ReplyUse V) :
    (sendCallback serialize callbackId use.response use.isSuccess).wire =
        (serialize (callbackRequest (use.invocation callbackId))).toOption ∧
      (sendCallback serialize callbackId use.response use.isSuccess).rejected = false := by
  have sent : sendCallback serialize callbackId use.response use.isSuccess =
    transmit serialize (callbackRequest (use.invocation callbackId)) := rfl
  rw [sent, transmit]
  cases serialize (callbackRequest (use.invocation callbackId)) <;> exact ⟨rfl, rfl⟩

theorem WorkerEndpoint.sendCallback_spec (serialize : RemoteMessage V → Except String W)
    (callbackId : JInt) (use : ReplyUse V) :
    (sendCallback serialize callbackId use.response use.isSuccess).wire =
        (serialize (.callback (use.invocation callbackId))).toOption ∧
      (sendCallback serialize callbackId use.response use.isSuccess).rejected = false := by
  have sent : sendCallback serialize callbackId use.response use.isSuccess =
    postMessage serialize (.callback (use.invocation callbackId)) := rfl
  rw [sent, postMessage]
  cases serialize (.callback (use.invocation callbackId)) <;> exact ⟨rfl, rfl⟩

theorem RpcEndpoint.sendCallback_spec (encodeResponse : ClientMessage V → Except String W)
    (callbackId : JInt) (use : ReplyUse V) :
    (sendCallback encodeResponse callbackId use.response use.isSuccess).wire =
        (encodeResponse (.callback (use.invocation callbackId))).toOption ∧
      (sendCallback encodeResponse callbackId use.response use.isSuccess).rejected = false := by
  simp only [sendCallback, ReplyUse.invocation]
  split
  · rename_i message encoded
    rw [encoded]
    exact ⟨rfl, rfl⟩
  · rename_i message failed
    rw [failed]
    exact ⟨rfl, rfl⟩

/-- The three reply callbacks are spent by their first use. -/
theorem reply_spent_by_first_use (callbackId : JInt) (uses : List (ReplyUse V)) :
    (∀ serialize : ServerImpl.Request V → Except String W,
      SpentByFirstUse (fun answer => serialize (ServerImpl.callbackRequest answer)) callbackId
        uses (ReplyCallback.useAll (ServerImpl.useReply serialize)
          { callbackId := callbackId } uses)) ∧
    (∀ serialize : RemoteMessage V → Except String W,
      SpentByFirstUse (fun answer => serialize (.callback answer)) callbackId uses
        (ReplyCallback.useAll (WorkerEndpoint.useReply serialize)
          { callbackId := callbackId } uses)) ∧
    (∀ encodeResponse : ClientMessage V → Except String W,
      SpentByFirstUse (fun answer => encodeResponse (.callback answer)) callbackId uses
        (ReplyCallback.useAll (RpcEndpoint.useReply encodeResponse)
          { callbackId := callbackId } uses)) := by
  refine ⟨?_, ?_, ?_⟩
  · intro serialize
    apply ReplyCallback.spentByFirstUse
    · exact fun use => (ServerImpl.sendCallback_spec serialize callbackId use).1
    · exact fun use => (ServerImpl.sendCallback_spec serialize callbackId use).2
  · intro serialize
    apply ReplyCallback.spentByFirstUse
    · exact fun use => (WorkerEndpoint.sendCallback_spec serialize callbackId use).1
    · exact fun use => (WorkerEndpoint.sendCallback_spec serialize callbackId use).2
  · intro encodeResponse
    apply ReplyCallback.spentByFirstUse
    · exact fun use => (RpcEndpoint.sendCallback_spec encodeResponse callbackId use).1
    · exact fun use => (RpcEndpoint.sendCallback_spec encodeResponse callbackId use).2

/-- Only a response other than zero can be serialized. -/
def encodeNonzero (answer : CallbackInvocation Nat) : Except String Nat :=
  if answer.response = 0 then .error "not serializable" else .ok answer.response

/-- A success that cannot be serialized, then a failure that could be. -/
def failedReply : List (ReplyUse Nat) :=
  [{ isSuccess := true, response := 0 }, { isSuccess := false, response := 1 }]

/-- None of the three lets the failure through after the failed success. -/
theorem failed_reply_spends_callback :
    let encodeMessage : Message Nat → Except String Nat
      | .callback answer => encodeNonzero answer
      | .invocation _ => .error "not serializable"
    ¬ SpentByReply encodeNonzero 1 failedReply
        (ReplyCallback.useAll (ServerImpl.useReply fun request => encodeMessage request.parameter)
          { callbackId := 1 } failedReply) ∧
      ¬ SpentByReply encodeNonzero 1 failedReply
        (ReplyCallback.useAll (WorkerEndpoint.useReply encodeMessage)
          { callbackId := 1 } failedReply) ∧
      ¬ SpentByReply encodeNonzero 1 failedReply
        (ReplyCallback.useAll (RpcEndpoint.useReply encodeMessage)
          { callbackId := 1 } failedReply) :=
  ⟨fun spent => absurd spent.wire (by decide), fun spent => absurd spent.wire (by decide),
    fun spent => absurd spent.wire (by decide)⟩

end WebbitGwt.Rpc
