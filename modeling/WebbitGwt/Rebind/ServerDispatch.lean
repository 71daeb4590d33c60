import WebbitGwt.Rebind.Overloads
import WebbitGwt.Rpc.CustomFieldSerializers
import WebbitGwt.Rpc.RemoteMethods
import WebbitGwt.Rpc.ServerImpl

/-!
# Calls of the server

A call of the generated server proxy is dispatched by `handleMessage`, which looks for
the first public method of the name.  A generated `__invoke` would also have compared
the number of parameters.
-/

namespace WebbitGwt.Rebind

open WebbitGwt.Java
open WebbitGwt.Rpc

universe u v w x

variable {V : Type u} {Cb : Type v} {Cb' : Type w} {W : Type x}

namespace Values

variable (values : Values V)

/-- A call of a method of the generated server proxy, with lossless serialization.  The
serializer of `ServerInvocation` asks the parameter array for its length. -/
def callServer (body : ProxyBody) (table : CallbackTable Cb) (args : List V)
    (callback : Option Cb) : CallbackTable Cb × Transmission (ServerMessage V) :=
  let params := values.varargs (body.arguments.zip args)
  let (registered, sent) := ServerImpl.sendMessage (fun request => .ok request.parameter) table
    body.methodName (if body.passesCallback then callback else none) params
  match params with
  | none => (registered, { thrown := some .nullPointerException })
  | some _ => (registered, sent)

/-- The invocation of a call is the one its serializer is given: it is sent if it can be
written, and the call throws what the serializer throws. -/
theorem callServer_serializes {V : Type} (values : Values V) (body : ProxyBody)
    (table : CallbackTable Cb) (args : List V) (callback : Option Cb) :
    ∃ call : ServerInvocation V, call.parameters = values.varargs (body.arguments.zip args) ∧
      (values.callServer body table args callback).2 =
        match ServerInvocationCustomFieldSerializer.serialize call [] with
        | .ok _ => { wire := some (.invocation call) }
        | .error exception => { thrown := some exception } := by
  let passed := if body.passesCallback then callback else none
  refine ⟨{ method := body.methodName
            parameters := values.varargs (body.arguments.zip args)
            callbackId := (table.registerNullable passed).1 }, rfl, ?_⟩
  unfold callServer
  cases array : values.varargs (body.arguments.zip args) with
  | none => rw [ServerInvocationCustomFieldSerializer.serialize_null rfl]
  | some params =>
      rw [ServerInvocationCustomFieldSerializer.serialize_eq (Option.some_ne_none params),
        writes_writeInvocation rfl]
      rfl

end Values

/-- Null and strings. -/
def nullableStrings : Values (Option String) where
  elements _ := none
  conforms type _ :=
    type == .reference "java.lang.String" || type == .reference "java.lang.Object"

end WebbitGwt.Rebind
