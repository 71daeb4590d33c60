import WebbitGwt.Rebind.ServerDispatch
import WebbitGwt.Rpc.FailedCall
import Mathlib.Data.List.Count

/-!
# Null in the place of a callback

The proxies in the browser send a null callback as id zero, with the other arguments
only; both receivers then miss an argument.  The server's proxy registers null like any
callback and sends its id, so that a reply is called on null.
-/

namespace WebbitGwt.Rebind

open WebbitGwt.Java
open WebbitGwt.Rpc

universe u v w x

variable {V : Type u} {Cb : Type v} {Cb' : Type w} {W : Type x}

/-- A map of callbacks as one in which null may be registered. -/
def nullable (table : CallbackTable Cb) : CallbackTable (Option Cb) where
  nextCallbackId := table.nextCallbackId
  callbacks callbackId := (table.callbacks callbackId).map some

/-- A call without a reply, from the maps of callbacks before and after it: the peer
invokes the method, no callback is registered, and no answer that may come makes the
sender call a method on null. -/
structure CallWithoutReply (before after : CallbackTable (Option Cb)) (invoked : Prop) : Prop where
  invoked : invoked
  no_entry : after.callbacks = before.callbacks
  no_null : ∀ callbackId, (after.answer callbackId).1 ≠ some none

/-- Among the calls of a generated `__invoke` there is one of the method, with these
arguments and something in the place of the callback. -/
def InvokedOnce (calls : List (JMethod × List (Argument V))) (method : JMethod) (args : List V) :
    Prop :=
  ∃ last, calls.filter (fun call => call.1 == method) = [(method, args.map .value ++ [last])]

/-- `handleMessage` invokes a public method of the name, with these arguments and
something in the place of the callback. -/
def InvokedReflectively (server : ServerClass) (admits : Rpc.Method → List (Argument V) → Bool)
    (endpoint : RpcEndpoint.State Cb) (wire : Option (ServerMessage V)) (method : JMethod)
    (args : List V) : Prop :=
  ∃ message invoked last, wire = some message ∧
    reflected server admits endpoint message = some (invoked, args.map .value ++ [last]) ∧
    invoked.name = method.name ∧ invoked.parameterTypes.length = method.parameters.length

/-- The only argument is an array of references, and its elements are the array itself
and another value. -/
def HoldsItself (values : Values V) (types : List JType) (args : List V) (last : V) : Prop :=
  ∃ type value, types = [type] ∧ args = [value] ∧ type.isReferenceArray ∧
    values.elements value = some [value, last]

namespace Values

variable {values : Values V}

/-- The parameter array has an element more than there are arguments only if the one
argument is passed as the array. -/
theorem varargs_getD_eq_append_iff {types : List JType} {args : List V}
    (sameLength : types.length = args.length) (last : V) :
    (values.varargs (types.zip args)).getD [] = args ++ [last] ↔
      HoldsItself values types args last := by
  rcases @varargs_cases V values types args sameLength with
    ⟨type, value, rfl, rfl, isArray, passed⟩ | ⟨notArray, passed⟩
  · rw [passed, HoldsItself]
    cases elements : values.elements value <;> simp [isArray, elements]
  · rw [passed, Option.getD_some]
    constructor
    · intro same
      simpa using congrArg List.length same
    · rintro ⟨type, value, onlyType, _, isArray, _⟩
      exact absurd isArray (notArray type onlyType)

/-- Parameters that begin with the arguments and have one more. -/
theorem map_value_eq_append {told args : List V} {last : Argument V}
    (same : told.map Argument.value = args.map Argument.value ++ [last]) :
    ∃ final, told = args ++ [final] ∧ last = .value final := by
  have valueInjective : Function.Injective (Argument.value (V := V)) :=
    fun _ _ same => Argument.value.inj same
  rcases List.map_eq_append_iff.mp same with ⟨front, back, rfl, frontSame, backSame⟩
  rcases List.map_eq_singleton_iff.mp backSame with ⟨final, rfl, rfl⟩
  rw [valueInjective.list_map frontSame]
  exact ⟨final, rfl, rfl⟩

/-- Among calls with the same parameters there is one of the method exactly if it is
listed once and these are the parameters. -/
theorem invokedOnce_map_iff {candidates : List JMethod} {told args : List V} {method : JMethod} :
    InvokedOnce (candidates.map fun candidate => (candidate, told.map Argument.value)) method args ↔
      candidates.count method = 1 ∧ ∃ last, told = args ++ [last] := by
  have filtered : (candidates.map fun candidate =>
      (candidate, told.map Argument.value)).filter (fun call => call.1 == method) =
        List.replicate (candidates.count method) (method, told.map Argument.value) := by
    induction candidates with
    | nil => rfl
    | cons candidate rest ih =>
        rw [List.map_cons, List.filter_cons, List.count_cons, ih]
        by_cases same : candidate = method
        · subst same
          simp [List.replicate_succ]
        · simp [same]
  rw [InvokedOnce, filtered]
  constructor
  · rintro ⟨last, same⟩
    have count := congrArg List.length same
    rw [List.length_replicate, List.length_singleton] at count
    rw [count, List.replicate_one, List.cons.injEq, Prod.mk.injEq] at same
    rcases map_value_eq_append same.1.2 with ⟨final, told_eq, _⟩
    exact ⟨count, final, told_eq⟩
  · rintro ⟨count, last, rfl⟩
    refine ⟨.value last, ?_⟩
    rw [count, List.replicate_one, List.map_append]
    rfl

/-- What the proxy of a worker makes of null. -/
theorem deliver_null (methods : List JMethod) (sender receiver : CallbackTable Cb)
    (method : JMethod) (args : List V) :
    values.deliver methods sender receiver method args none =
      (values.invoke method.name
        (((values.varargs (method.valueTypes.zip args)).getD []).map .value) methods).calls := by
  simp only [deliver, callProxy, ite_self]
  rw [← List.append_nil (List.map Argument.value _)]
  rfl

/-- What the proxy of a server makes of null: nothing is registered, and the id is zero. -/
theorem callServer_null (method : JMethod) (table : CallbackTable Cb) (args : List V) :
    (values.callServer (printServerMethodBody method) table args none).1 = table ∧
      (values.callServer (printServerMethodBody method) table args none).2.wire =
        (values.varargs (method.valueTypes.zip args)).map fun params =>
          .invocation { method := method.name, parameters := some params, callbackId := 0 } := by
  have arguments : (printServerMethodBody method).arguments = method.valueTypes := rfl
  simp only [callServer, arguments, ite_self]
  cases values.varargs (method.valueTypes.zip args) <;> exact ⟨rfl, rfl⟩

theorem callProxy_null (method : JMethod) (table : CallbackTable Cb) (args : List V) :
    (values.callProxy (printServerMethodBody method) table args none).1 = table := by
  simp only [callProxy, ite_self]
  rfl

end Values

/-- The proxies in the browser register nothing, so all depends on the invocation. -/
theorem callWithoutReply_nullable_iff {before after : CallbackTable Cb} (same : after = before)
    {invoked : Prop} :
    CallWithoutReply (nullable before) (nullable after) invoked ↔ invoked := by
  constructor
  · intro call
    exact call.invoked
  · intro done
    refine ⟨done, by rw [same], ?_⟩
    intro callbackId
    rw [CallbackTable.answer_fst, nullable]
    cases after.callbacks callbackId <;> simp

/-- A message from the server has the method called by a generated `__invoke`. -/
def InvokedByClient (values : Values V) (implementation : Implementation V)
    (receiver : CallbackTable Cb) (wire : Option (ClientMessage V)) (methods : List JMethod)
    (method : JMethod) (args : List V) : Prop :=
  ∃ message name params, wire = some message ∧
    (ServerImpl.onMessage receiver message.received).2 = .invoke name params ∧
    InvokedOnce (values.clientInvoke implementation name params methods).calls method args

/-- The server's proxy has an answer called on null, if it sends anything. -/
theorem answer_null_of_wire {state : RpcEndpoint.State (Option Cb)} {proxied : Rpc.Method}
    {args : List V} {message : ClientMessage V}
    (sent : (RpcEndpoint.IH.invoke .ok state proxied (.withCallback args none)).2.wire =
      some message) :
    ((RpcEndpoint.IH.invoke .ok state proxied (.withCallback args none)).1.callbackTable.answer
      state.callbackTable.nextCallbackId).1 = some none := by
  rw [CallbackTable.answer_fst]
  cases refused : RpcEndpoint.IH.refusal proxied with
  | some exception =>
      simp only [RpcEndpoint.IH.invoke, refused, reduceCtorEq] at sent
  | none =>
      cases takesCallback : RpcEndpoint.IH.hasCallback proxied with
      | false =>
          simp only [RpcEndpoint.IH.invoke, refused, takesCallback, reduceCtorEq] at sent
      | true =>
          simp only [RpcEndpoint.IH.invoke, refused, takesCallback]
          exact Function.update_self ..

/-- What the server makes of id zero: the first method of the name is invoked with its
own arguments and one more if these are what has been passed for the parameter array. -/
theorem invokedReflectively_null_iff {values : Values V} {server : ServerClass}
    {admits : Rpc.Method → List (Argument V) → Bool} {endpoint : RpcEndpoint.State Cb}
    (sound : CacheSound server endpoint) (table : CallbackTable Cb') {method : JMethod}
    {args : List V} (sameLength : method.valueTypes.length = args.length) :
    InvokedReflectively server admits endpoint
        (values.callServer (printServerMethodBody method) table args none).2.wire method args ↔
      ∃ last first, HoldsItself values method.valueTypes args last ∧
        server.firstNamed method.name = some first ∧
        first.parameterTypes.length = method.parameters.length ∧
        admits first ((args ++ [last]).map .value) := by
  have noReply (params : List V) : params.map Argument.value = Invocation.arguments
      { method := method.name, parameters := some params, callbackId := 0 } params :=
    (List.append_nil _).symm
  rw [InvokedReflectively, (Values.callServer_null method table args).2]
  constructor
  · rintro ⟨message, invoked, last, sent, run, _, length⟩
    rcases Option.map_eq_some_iff.mp sent with ⟨params, passed, rfl⟩
    rw [reflected_invocation sound] at run
    rcases run with ⟨named, args_eq, admitted⟩
    rcases Values.map_value_eq_append ((noReply params).trans args_eq.symm) with
      ⟨final, rfl, rfl⟩
    refine ⟨final, invoked, ?_, named, length, ?_⟩
    · rw [← Values.varargs_getD_eq_append_iff sameLength, passed]
      rfl
    · rw [List.map_append]
      exact admitted
  · rintro ⟨last, first, ⟨type, value, types_eq, rfl, isArray, elements⟩, named, length, admitted⟩
    have passed : values.varargs (method.valueTypes.zip [value]) = some [value, last] := by
      rw [types_eq, List.zip_cons_cons, List.zip_nil_left, Values.varargs, if_pos isArray,
        elements]
    refine ⟨_, first, .value last, by rw [passed]; rfl, ?_, ?_, length⟩
    · rw [reflected_invocation sound]
      exact ⟨named, noReply [value, last], admitted⟩
    · have found := List.find?_some named
      exact beq_iff_eq.mp found

/-- What a worker endpoint makes of it. -/
theorem invokedOnce_null_iff {values : Values V} (methods : List JMethod)
    (sender receiver : CallbackTable Cb) {method : JMethod} {args : List V}
    (sameLength : method.valueTypes.length = args.length) :
    InvokedOnce (values.deliver methods sender receiver method args none) method args ↔
      ∃ last, HoldsItself values method.valueTypes args last ∧
        ((matching "com.colinalworth.gwt.worker.client.Endpoint" method.name
          ((args ++ [last]).map .value) methods).takeWhile
            (values.accepts ((args ++ [last]).map .value))).count method = 1 := by
  rw [Values.deliver_null, Values.invoke_calls, Values.invokedOnce_map_iff]
  constructor
  · rintro ⟨count, last, told⟩
    rw [told] at count
    exact ⟨last, (Values.varargs_getD_eq_append_iff sameLength last).mp told, count⟩
  · rintro ⟨last, holds, count⟩
    have told := (Values.varargs_getD_eq_append_iff sameLength last).mpr holds
    rw [told]
    exact ⟨count, last, rfl⟩

/-- Null for a callback is a call without a reply only if the other arguments are one
array of references that holds itself and something for the callback, and only from the
browser: there, if the receiver takes these two values for the method.  It never is from
the server. -/
theorem null_callback_iff (values : Values V) {method : JMethod} {args : List V}
    (sameLength : method.valueTypes.length = args.length) :
    (∀ (server : ServerClass) (admits : Rpc.Method → List (Argument V) → Bool)
      (encodeResponse : ClientMessage V → Except String W) (connection : Connection Cb V)
      (table : CallbackTable Cb'),
      (connectionMachine server admits encodeResponse).Reachable connection →
      (CallWithoutReply (nullable table)
          (nullable (values.callServer (printServerMethodBody method) table args none).1)
          (InvokedReflectively server admits connection.endpoint
            (values.callServer (printServerMethodBody method) table args none).2.wire method args) ↔
        ∃ last first, HoldsItself values method.valueTypes args last ∧
          server.firstNamed method.name = some first ∧
          first.parameterTypes.length = method.parameters.length ∧
          admits first ((args ++ [last]).map .value))) ∧
    (∀ (methods : List JMethod) (sender receiver : CallbackTable Cb'),
      CallWithoutReply (nullable sender)
          (nullable (values.callProxy (printServerMethodBody method) sender args none).1)
          (InvokedOnce (values.deliver methods sender receiver method args none) method args) ↔
        ∃ last, HoldsItself values method.valueTypes args last ∧
          ((matching "com.colinalworth.gwt.worker.client.Endpoint" method.name
            ((args ++ [last]).map .value) methods).takeWhile
              (values.accepts ((args ++ [last]).map .value))).count method = 1) ∧
    (∀ (state : RpcEndpoint.State (Option Cb)) (proxied : Rpc.Method)
      (implementation : Implementation V) (receiver : CallbackTable Cb') (methods : List JMethod),
      ¬ CallWithoutReply state.callbackTable
          (RpcEndpoint.IH.invoke .ok state proxied (.withCallback args none)).1.callbackTable
          (InvokedByClient values implementation receiver
            (RpcEndpoint.IH.invoke .ok state proxied (.withCallback args none)).2.wire methods
            method args)) := by
  refine ⟨?_, ?_, ?_⟩
  · intro server admits encodeResponse connection table reachable
    rw [callWithoutReply_nullable_iff (Values.callServer_null method table args).1]
    exact invokedReflectively_null_iff (cacheSound_of_reachable reachable) table sameLength
  · intro methods sender receiver
    rw [callWithoutReply_nullable_iff (Values.callProxy_null method sender args)]
    exact invokedOnce_null_iff methods sender receiver sameLength
  · intro state proxied implementation receiver methods call
    rcases call.invoked with ⟨message, _, _, sent, _⟩
    exact call.no_null _ (answer_null_of_wire sent)

/-! ## A login, and an array that holds itself -/

/-- Null, and an array that holds itself and null. -/
inductive Knot
  | null
  | array
  deriving DecidableEq

/-- Its elements; everything is an object. -/
def Knot.values : Values Knot where
  elements
    | .array => some [.array, .null]
    | .null => none
  conforms _ _ := true

/-- `void store(Object[] items, Callback<Void, Void> callback)` -/
def storeMethod : JMethod where
  name := "store"
  enclosingType := "Archive"
  parameters :=
    [.array (.reference "java.lang.Object"),
      .reference "com.google.gwt.core.client.Callback"]

/-- The array is taken for the parameter array, and has the right number of elements. -/
theorem null_callback_store :
    CallWithoutReply (nullable (.new : CallbackTable Nat))
      (nullable (Knot.values.callProxy (printServerMethodBody storeMethod)
        (.new : CallbackTable Nat) [.array] none).1)
      (InvokedOnce (Knot.values.deliver [storeMethod] (.new : CallbackTable Nat) .new storeMethod
        [.array] none) storeMethod [.array]) := by
  have sameLength : storeMethod.valueTypes.length = [Knot.array].length := rfl
  refine ((@null_callback_iff Knot Nat Nat Nat Knot.values _ _ sameLength).2.1 _ _ _).mpr
    ⟨.null, ⟨_, _, rfl, rfl, rfl, rfl⟩, ?_⟩
  decide

/-- `void login(String username, Callback<Void, String> callback)` of the sample. -/
def loginMethod : JMethod where
  name := "login"
  enclosingType := "samples.easychatroom2.shared.ChatServer"
  parameters :=
    [.reference "java.lang.String", .reference "com.google.gwt.core.client.Callback"]

/-- `void ask(Object question, Callback<Void, String> callback)` of a client. -/
def askDeclared : JMethod where
  name := askMethod.name
  enclosingType := askMethod.declaringClass
  parameters :=
    [.reference "java.lang.Object", .reference "com.google.gwt.core.client.Callback"]

/-- Null as the callback of a login, or of a question asked of a client. -/
theorem null_callback_login :
    ¬ CallWithoutReply (nullable (.new : CallbackTable Nat))
        (nullable (nullableStrings.callServer (printServerMethodBody loginMethod)
          (.new : CallbackTable Nat) [some "Bob"] none).1)
        (InvokedReflectively chatServerImpl admitsStrings (.new : RpcEndpoint.State Nat)
          (nullableStrings.callServer (printServerMethodBody loginMethod)
            (.new : CallbackTable Nat) [some "Bob"] none).2.wire loginMethod [some "Bob"]) ∧
      ¬ CallWithoutReply (nullable (.new : CallbackTable Nat))
        (nullable (nullableStrings.callProxy (printServerMethodBody loginMethod)
          (.new : CallbackTable Nat) [some "Bob"] none).1)
        (InvokedOnce (nullableStrings.deliver [loginMethod] (.new : CallbackTable Nat) .new
          loginMethod [some "Bob"] none) loginMethod [some "Bob"]) ∧
      ¬ CallWithoutReply (.new : CallbackTable (Option Nat))
        (RpcEndpoint.IH.invoke .ok (.new : RpcEndpoint.State (Option Nat)) askMethod
          (.withCallback [some "Bob"] none)).1.callbackTable
        (InvokedByClient nullableStrings (fun _ _ => none) (.new : CallbackTable Nat)
          (RpcEndpoint.IH.invoke .ok (.new : RpcEndpoint.State (Option Nat)) askMethod
            (.withCallback [some "Bob"] none)).2.wire [askDeclared] askDeclared [some "Bob"]) := by
  refine ⟨?_, ?_, ?_⟩
  · intro call
    rcases call.invoked with ⟨message, invoked, last, sent, run, _⟩
    cases sent
    cases run
  · intro call
    rcases call.invoked with ⟨last, same⟩
    cases same
  · intro call
    exact call.no_null 1 rfl

end WebbitGwt.Rebind
