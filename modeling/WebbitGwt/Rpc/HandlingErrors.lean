import WebbitGwt.Rpc.RemoteMethods

/-!
# Errors while a message is handled

`handleMessage` catches what `Method.invoke` says about the invoked method: that it threw,
or that it may not be accessed.  A method that was not found, arguments that do not fit
and whatever a fired callback throws are not caught, and the container gets them.
-/

namespace WebbitGwt.Rpc

open WebbitGwt.Java
open WebbitGwt.Transition

universe u v w

variable {Cb : Type u} {V : Type v} {W : Type w}

/-- What `Method.invoke` comes to, for a method that was found: the method returns or
throws, or it is not run because it may not be accessed or its parameters do not take
the arguments. -/
inductive Reflection
  | returns
  | threw (cause : Throwable)
  | illegalAccess (message : String)
  | illegalArgument (message : String)
  deriving DecidableEq

/-- How the code behaves that a message has run: what a reflective call comes to, and
what a fired callback throws, if it does. -/
structure Behaviour (Cb : Type u) (V : Type v) where
  invoke : Method → List (Argument V) → Reflection
  fire : Cb → Bool → V → Option Throwable

/-- What `server.onError` is called with, and what is thrown to the caller. -/
structure Handling where
  onErrors : List Throwable := []
  thrown : Option Throwable := none
  deriving DecidableEq

namespace RpcEndpoint

/-- The rest of `handleMessage`, from the call of user code on. -/
def finishHandling (behaviour : Behaviour Cb V) : Handled Cb V → Handling
  | .ignored => {}
  | .fire callback success response => { thrown := behaviour.fire callback success response }
  | .invoke none _ => { thrown := some .nullPointerException }
  | .invoke (some method) args =>
      match behaviour.invoke method args with
      | .returns => {}
      | .threw cause => { onErrors := [cause] }
      | .illegalAccess message => { onErrors := [.illegalAccessException message] }
      | .illegalArgument message => { thrown := some (.illegalArgumentException message) }

/-- Something went wrong: the method was not found, could not be invoked or threw, or the
fired callback did. -/
def failed (behaviour : Behaviour Cb V) : Handled Cb V → Bool
  | .ignored => false
  | .fire callback success response => (behaviour.fire callback success response).isSome
  | .invoke none _ => true
  | .invoke (some method) args => behaviour.invoke method args != .returns

/-- A message is handled without an exception, and a failure is told to the server's
error handler once. -/
structure ErrorsReported (behaviour : Behaviour Cb V) (handled : Handled Cb V) : Prop where
  returns : (finishHandling behaviour handled).thrown = none
  reported : failed behaviour handled → (finishHandling behaviour handled).onErrors.length = 1

/-- What is caught are the failures of a method that was found and takes the arguments. -/
def Caught (behaviour : Behaviour Cb V) : Handled Cb V → Prop
  | .ignored => True
  | .fire callback success response => behaviour.fire callback success response = none
  | .invoke none _ => False
  | .invoke (some method) args => ∀ message,
      behaviour.invoke method args ≠ .illegalArgument message

theorem errorsReported_iff (behaviour : Behaviour Cb V) (handled : Handled Cb V) :
    ErrorsReported behaviour handled ↔ Caught behaviour handled := by
  cases handled with
  | ignored => exact ⟨fun _ => trivial, fun _ => ⟨rfl, nofun⟩⟩
  | fire callback success response =>
      constructor
      · intro errors
        exact errors.returns
      · intro quiet
        refine ⟨quiet, fun failure => ?_⟩
        rw [failed, show behaviour.fire callback success response = none from quiet] at failure
        exact absurd failure Bool.false_ne_true
  | invoke found args =>
      cases found with
      | none => exact ⟨fun errors => (nomatch errors.returns), False.elim⟩
      | some method =>
          rw [Caught]
          constructor
          · intro errors message rejected
            have returns := errors.returns
            rw [finishHandling, rejected] at returns
            cases returns
          · intro fits
            cases outcome : behaviour.invoke method args with
            | returns => exact ⟨by rw [finishHandling, outcome], by simp [failed, outcome]⟩
            | threw cause =>
                exact ⟨by rw [finishHandling, outcome], by simp [finishHandling, outcome]⟩
            | illegalAccess message =>
                exact ⟨by rw [finishHandling, outcome], by simp [finishHandling, outcome]⟩
            | illegalArgument message => exact absurd outcome (fits message)

end RpcEndpoint

/-- What a message must not come upon: a callback that throws, or a name of no public
method, or arguments that do not fit the first public method of the name. -/
def Catchable (server : ServerClass) (behaviour : Behaviour Cb V)
    (endpoint : RpcEndpoint.State Cb) : ServerMessage V → Prop
  | .callback answer => ∀ callback,
      endpoint.callbackTable.callbacks answer.callbackId = some callback →
        behaviour.fire callback answer.isSuccess answer.response = none
  | .invocation invoke => ∃ method, server.firstNamed invoke.method = some method ∧
      ∀ message, behaviour.invoke method (invoke.arguments (invoke.parameters.getD [])) ≠
        .illegalArgument message

/-- Failures reach the server's error handler, once each, and nothing else gets out of
`handleMessage`, exactly for the messages that come upon none of these.  What was
looked up before does not matter. -/
theorem handling_errors_reported_iff {server : ServerClass}
    {admits : Method → List (Argument V) → Bool}
    {encodeResponse : ClientMessage V → Except String W} {connection : Connection Cb V}
    (reachable : (connectionMachine server admits encodeResponse).Reachable connection)
    (behaviour : Behaviour Cb V) (message : ServerMessage V) :
    RpcEndpoint.ErrorsReported behaviour
        (RpcEndpoint.handleMessage server.methods connection.endpoint message).2 ↔
      Catchable server behaviour connection.endpoint message := by
  rw [RpcEndpoint.errorsReported_iff]
  cases message with
  | callback answer =>
      cases entry : connection.endpoint.callbackTable.callbacks answer.callbackId with
      | none =>
          rw [RpcEndpoint.handleMessage_callback_of_none entry]
          refine ⟨fun _ callback present => ?_, fun _ => trivial⟩
          cases entry.symm.trans present
      | some target =>
          rw [RpcEndpoint.handleMessage_callback_of_some entry]
          constructor
          · intro quiet callback present
            cases entry.symm.trans present
            exact quiet
          · intro quiet
            exact quiet target entry
  | invocation invoke =>
      have sound := cacheSound_of_reachable reachable
      rw [RpcEndpoint.handleMessage_invocation, sound.lookup_fst, Catchable]
      cases named : server.firstNamed invoke.method with
      | none => exact ⟨False.elim, nofun⟩
      | some method =>
          constructor
          · intro fits
            exact ⟨method, rfl, fits⟩
          · rintro ⟨_, ⟨⟩, fits⟩
            exact fits

/-- Every method throws, and so does every callback; arguments are counted. -/
def alwaysThrows : Behaviour Nat (Option String) where
  invoke method args :=
    if args.length = method.parameterTypes.length then
      .threw (.userException "login refused")
    else
      .illegalArgument "wrong number of arguments"
  fire _ _ _ := some (.userException "no answer wanted")

/-- A method of the chat server that throws. -/
theorem handling_errors_reported_say :
    RpcEndpoint.ErrorsReported alwaysThrows
      (RpcEndpoint.handleMessage chatServerImpl.methods (.new : RpcEndpoint.State Nat)
        (.invocation ⟨"say", some [some "hello"], 0⟩)).2 := by
  let encodeResponse : ClientMessage (Option String) → Except String Nat := fun _ => .ok 0
  have reachable : (connectionMachine chatServerImpl admitsStrings encodeResponse).Reachable
      (.opened : Connection Nat (Option String)) := .init
  refine (handling_errors_reported_iff reachable alwaysThrows
    (.invocation ⟨"say", some [some "hello"], 0⟩)).mpr ⟨_, rfl, ?_⟩
  intro message
  exact nofun

/-- A name of no method gets a `NullPointerException` out, a missing argument an
`IllegalArgumentException`, and a callback its own. -/
theorem handling_errors_escape :
    let waiting : RpcEndpoint.State Nat :=
      { callbackTable := (CallbackTable.new.register 5).2, cachedMethods := fun _ => none }
    let outcome (message : ServerMessage (Option String)) : Handling :=
      RpcEndpoint.finishHandling alwaysThrows
        (RpcEndpoint.handleMessage chatServerImpl.methods waiting message).2
    outcome (.invocation ⟨"whisper", some [], 0⟩) =
        { onErrors := [], thrown := some .nullPointerException } ∧
      outcome (.invocation ⟨"say", some [], 0⟩) =
        { onErrors := []
          thrown := some (.illegalArgumentException "wrong number of arguments") } ∧
      outcome (.callback ⟨1, none, true⟩) =
        { onErrors := [], thrown := some (.userException "no answer wanted") } ∧
      ¬ RpcEndpoint.ErrorsReported alwaysThrows
        (RpcEndpoint.handleMessage chatServerImpl.methods waiting
          (.invocation ⟨"whisper", some [], 0⟩)).2 := by
  refine ⟨by decide, by decide, by decide, ?_⟩
  intro errors
  exact nomatch errors.returns

end WebbitGwt.Rpc
