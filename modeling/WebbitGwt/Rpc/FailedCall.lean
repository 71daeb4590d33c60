import WebbitGwt.Rpc.RpcEndpoint
import WebbitGwt.Rpc.ServerImpl
import WebbitGwt.Rpc.WorkerEndpoint

/-!
# Calls that cannot be serialized

All three senders register the callback before they serialize the invocation, and
none of them takes the registration back.  `ServerImpl` reports the error and
throws it again, `AbstractWorkerEndpointImpl` swallows it, and `RpcEndpoint` passes
it on; the callbacks map looks the same after each of them.
-/

namespace WebbitGwt.Rpc

open WebbitGwt.Java

universe u v w

variable {Cb : Type u} {V : Type v} {W : Type w}

/-- The callbacks map after a call with the given callback, whatever becomes of the
invocation. -/
def CallbackTable.afterCall (table : CallbackTable Cb) : Option Cb → JInt → Option Cb
  | none => table.callbacks
  | some callback => Function.update table.callbacks table.nextCallbackId (some callback)

theorem CallbackTable.registerNullable_callbacks (table : CallbackTable Cb)
    (callback : Option Cb) :
    (table.registerNullable callback).2.callbacks = table.afterCall callback := by
  cases callback <;> rfl

/-- The map is as before only when there is no callback, or when the id was in use
for the very same callback. -/
theorem CallbackTable.afterCall_eq_iff (table : CallbackTable Cb) (callback : Option Cb) :
    table.afterCall callback = table.callbacks ↔
      callback = none ∨ table.callbacks table.nextCallbackId = callback := by
  cases callback with
  | none => simp [afterCall]
  | some callback =>
      simp only [afterCall, Function.update_eq_self_iff, reduceCtorEq, false_or]
      exact eq_comm

/-- The map that a call leaves: nothing but the callback has been added, and that
only changes the map if there is a callback that was not there yet. -/
structure CallbackTable.LeavesBehind (table : CallbackTable Cb) (callback : Option Cb)
    (after : JInt → Option Cb) : Prop where
  after_eq : after = table.afterCall callback
  unchanged_iff : after = table.callbacks ↔
    callback = none ∨ table.callbacks table.nextCallbackId = callback

theorem CallbackTable.leavesBehind {table : CallbackTable Cb} {callback : Option Cb}
    {after : JInt → Option Cb} (after_eq : after = table.afterCall callback) :
    table.LeavesBehind callback after where
  after_eq := after_eq
  unchanged_iff := by rw [after_eq, table.afterCall_eq_iff]

/-- The callback that a proxy call passes for the handler to register. -/
def RpcEndpoint.IH.ProxyArgs.callback? : RpcEndpoint.IH.ProxyArgs V Cb → Option Cb
  | .plain _ => none
  | .withCallback _ callback => some callback

/-- `__sendMessage` of the client reports a serialization error only after the
callback has been registered. -/
theorem ServerImpl.sendMessage_callbacks (serialize : ServerImpl.Request V → Except String W)
    (table : CallbackTable Cb) (methodName : String) (callback : Option Cb)
    (params : Option (List V)) :
    (ServerImpl.sendMessage serialize table methodName callback params).1.callbacks =
      table.afterCall callback :=
  table.registerNullable_callbacks callback

/-- Likewise `__sendMessage` of a worker endpoint. -/
theorem WorkerEndpoint.sendMessage_callbacks (serialize : RemoteMessage V → Except String W)
    (table : CallbackTable Cb) (methodName : String) (callback : Option Cb)
    (params : Option (List V)) :
    (WorkerEndpoint.sendMessage serialize table methodName callback params).1.callbacks =
      table.afterCall callback :=
  table.registerNullable_callbacks callback

/-- A refused call is not refused for its arguments. -/
theorem RpcEndpoint.IH.refusal_ne_serialization (method : Method) (message : String) :
    refusal method ≠ some (.serializationException message) := by
  unfold refusal
  split
  · simp
  · split <;> simp

/-- A proxy call that ends in a serialization error has got past the checks, so it
has registered its callback. -/
theorem RpcEndpoint.IH.invoke_callbacks {encodeResponse : ClientMessage V → Except String W}
    {state : RpcEndpoint.State Cb} {method : Method} {args : ProxyArgs V Cb} {message : String}
    (failed : (invoke encodeResponse state method args).2.thrown =
      some (.serializationException message)) :
    (invoke encodeResponse state method args).1.callbackTable.callbacks =
      state.callbackTable.afterCall args.callback? := by
  cases refused : refusal method with
  | some exception =>
      simp only [invoke, refused] at failed
      exact absurd (refused.trans failed) (refusal_ne_serialization method message)
  | none =>
      cases takesCallback : hasCallback method <;> cases args <;>
        simp_all [invoke, ProxyArgs.callback?, CallbackTable.afterCall]

/-- What a call whose invocation fails to serialize leaves in the callbacks map: the
callback, if there is one, under the next id, and nothing else. -/
theorem failed_call_trace (methodName : String) (callback : Option Cb)
    (params : Option (List V)) (method : Method) (args : RpcEndpoint.IH.ProxyArgs V Cb) :
    (∀ (serialize : ServerImpl.Request V → Except String W) (table : CallbackTable Cb) message,
      (ServerImpl.sendMessage serialize table methodName callback params).2.reported =
        some (.serializationException message) →
      table.LeavesBehind callback
        (ServerImpl.sendMessage serialize table methodName callback params).1.callbacks) ∧
    (∀ (serialize : RemoteMessage V → Except String W) (table : CallbackTable Cb),
      (WorkerEndpoint.sendMessage serialize table methodName callback params).2.wire = none →
      table.LeavesBehind callback
        (WorkerEndpoint.sendMessage serialize table methodName callback params).1.callbacks) ∧
    (∀ (encodeResponse : ClientMessage V → Except String W) (state : RpcEndpoint.State Cb)
      message,
      (RpcEndpoint.IH.invoke encodeResponse state method args).2.thrown =
        some (.serializationException message) →
      state.callbackTable.LeavesBehind args.callback?
        (RpcEndpoint.IH.invoke encodeResponse state method args).1.callbackTable.callbacks) := by
  refine ⟨?_, ?_, ?_⟩
  · intro serialize table message _
    exact CallbackTable.leavesBehind (ServerImpl.sendMessage_callbacks serialize table _ _ _)
  · intro serialize table _
    exact CallbackTable.leavesBehind (WorkerEndpoint.sendMessage_callbacks serialize table _ _ _)
  · intro encodeResponse state message failed
    exact CallbackTable.leavesBehind (RpcEndpoint.IH.invoke_callbacks failed)

/-- A method of a client interface that takes a callback. -/
def askMethod : Method where
  name := "ask"
  declaringClass := "samples.easychatroom2.shared.ChatClient"
  parameterTypes := ["java.lang.Object", "com.google.gwt.core.client.Callback"]
  returnType := "void"

/-- On fresh endpoints, with an argument that cannot be serialized. -/
theorem failed_call_trace_fresh :
    CallbackTable.new.LeavesBehind (some 0)
      (ServerImpl.sendMessage (V := Nat) (W := Nat) (fun _ => .error "not serializable") .new
        "ask" (some 0) (some [7])).1.callbacks ∧
    CallbackTable.new.LeavesBehind (some 0)
      (WorkerEndpoint.sendMessage (V := Nat) (W := Nat) (fun _ => .error "not serializable") .new
        "ask" (some 0) (some [7])).1.callbacks ∧
    CallbackTable.new.LeavesBehind (some 0)
      (RpcEndpoint.IH.invoke (V := Nat) (W := Nat) (fun _ => .error "not serializable") .new
        askMethod (.withCallback [7] 0)).1.callbackTable.callbacks :=
  have trace := failed_call_trace (W := Nat) "ask" (some 0) (some [7]) askMethod
    (.withCallback [7] 0)
  ⟨trace.1 _ .new "not serializable" rfl, trace.2.1 _ .new rfl,
    trace.2.2 _ .new "not serializable" rfl⟩

/-- There is a call of each sender that sends nothing and changes the map. -/
theorem failed_call_changes_callbacks :
    let notSerializable {M : Type} : M → Except String Nat := fun _ => .error "not serializable"
    let request := ServerImpl.sendMessage (V := Nat) notSerializable .new "ask" (some 0) (some [7])
    let remote :=
      WorkerEndpoint.sendMessage (V := Nat) notSerializable .new "ask" (some 0) (some [7])
    let proxy :=
      RpcEndpoint.IH.invoke (V := Nat) notSerializable .new askMethod (.withCallback [7] 0)
    (request.2.wire = none ∧ request.1.callbacks 1 = some 0) ∧
      (remote.2.wire = none ∧ remote.1.callbacks 1 = some 0) ∧
      (proxy.2.wire = none ∧ proxy.1.callbackTable.callbacks 1 = some 0) ∧
      (CallbackTable.new : CallbackTable Nat).callbacks 1 = none :=
  ⟨⟨rfl, rfl⟩, ⟨rfl, rfl⟩, ⟨rfl, rfl⟩, rfl⟩

end WebbitGwt.Rpc
