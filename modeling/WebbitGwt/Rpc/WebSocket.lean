import WebbitGwt.Rpc.ServerImpl
import WebbitGwt.Rpc.Traffic
import WebbitGwt.Transition.Core

/-!
# A client and a server on one connection

The system of one `ServerImpl`, one `RpcEndpoint` on its session and the messages
in flight.  Messages are delivered in any order.  The client runs on one thread,
so a call of `__sendMessage` is one step; calls on the server's client proxy come
from several threads, and taking the id, registering the callback and sending are
steps of their own.  User code only appears through the calls it makes and the
reply callbacks it uses: nothing happens to an endpoint after it has handed over
to user code, so what a handler or a callback does while it runs is a step like
what it does later.

Serialization is lossless here.
-/

namespace WebbitGwt.Rpc.WebSocket

open WebbitGwt.Java
open WebbitGwt.Transition

universe u

variable {V : Type u}

/-- The two endpoints, the messages in flight, the reply callbacks handed out, the
proxy calls in progress, and the logs of what has happened to callbacks. -/
structure Net (V : Type u) where
  client : CallbackTable Nat
  server : RpcEndpoint.State Nat
  toServer : List (Flight V)
  toClient : List (Flight V)
  heldByServer : List Held
  heldByClient : List Held
  proxyCalls : List (ProxyCall V)
  firedAtClient : List (Fired V)
  firedAtServer : List (Fired V)
  givenByServer : List (Nat × (Bool × V))
  givenByClient : List (Nat × (Bool × V))
  clientCalls : Nat
  serverCalls : Nat

/-- A fresh connection. -/
def Net.init : Net V where
  client := .new
  server := .new
  toServer := []
  toClient := []
  heldByServer := []
  heldByClient := []
  proxyCalls := []
  firedAtClient := []
  firedAtServer := []
  givenByServer := []
  givenByClient := []
  clientCalls := 0
  serverCalls := 0

inductive Action (V : Type u)
  | clientCall (method : String) (withCallback : Bool) (args : List V)
  | serverCall (method : Method) (args : Option (List V))
  | serverTakeId (method : Method) (args : List V)
  | serverRegister (index : Nat)
  | serverSend (index : Nat)
  | deliverToServer (index : Nat)
  | deliverToClient (index : Nat)
  | serverReplies (index : Nat) (success : Bool) (response : V)
  | clientReplies (index : Nat) (success : Bool) (response : V)

namespace Net

/-- A call of the generated client proxy. -/
def clientCall (net : Net V) (method : String) (withCallback : Bool) (args : List V) :
    Option (Net V) :=
  let callback := if withCallback then some net.clientCalls else none
  let (client, transmission) := ServerImpl.sendMessage .ok net.client method callback (some args)
  transmission.wire.map fun request =>
    { net with
      client := client
      toServer := ⟨request.parameter, net.clientCalls⟩ :: net.toServer
      clientCalls := if withCallback then net.clientCalls + 1 else net.clientCalls }

/-- A call of a method without callback on the server's client proxy: it touches
no field of the endpoint. -/
def serverCall (net : Net V) (method : Method) (args : Option (List V)) : Option (Net V) :=
  if RpcEndpoint.IH.hasCallback method then none
  else
    let (server, transmission) := RpcEndpoint.IH.invoke .ok net.server method (.plain args)
    transmission.wire.map fun message =>
      { net with server := server, toClient := ⟨message, net.serverCalls⟩ :: net.toClient }

/-- `callbackId = nextCallbackId.getAndIncrement()` -/
def serverTakeId (net : Net V) (method : Method) (args : List V) : Option (Net V) :=
  if RpcEndpoint.IH.refusal method = none ∧ RpcEndpoint.IH.hasCallback method then
    let (callbackId, table) := net.server.callbackTable.takeId
    some
      { net with
        server := { net.server with callbackTable := table }
        proxyCalls := ⟨.tookId, callbackId, net.serverCalls, method, args⟩ :: net.proxyCalls
        serverCalls := net.serverCalls + 1 }
  else none

/-- `callbacks.put(callbackId, ...)` -/
def serverRegister (net : Net V) (index : Nat) : Option (Net V) :=
  net.proxyCalls[index]?.bind fun proxyCall =>
    match proxyCall.stage with
    | .tookId =>
        some
          { net with
            server :=
              { net.server with
                callbackTable :=
                  net.server.callbackTable.put proxyCall.callbackId proxyCall.call }
            proxyCalls := net.proxyCalls.set index { proxyCall with stage := .registered } }
    | .registered => none

/-- Build the invocation, encode and send it. -/
def serverSend (net : Net V) (index : Nat) : Option (Net V) :=
  net.proxyCalls[index]?.bind fun proxyCall =>
    match proxyCall.stage with
    | .tookId => none
    | .registered =>
        (RpcEndpoint.IH.send .ok proxyCall.method (some proxyCall.args)
          proxyCall.callbackId).wire.map fun message =>
          { net with
            proxyCalls := net.proxyCalls.eraseIdx index
            toClient := ⟨message, proxyCall.call⟩ :: net.toClient }

/-- `RpcEndpoint.handleMessage` on a message in flight. -/
def deliverToServer (methods : List Method) (net : Net V) (index : Nat) : Option (Net V) :=
  net.toServer[index]?.map fun flight =>
    let (server, handled) :=
      RpcEndpoint.handleMessage methods net.server flight.message.received
    let delivered :=
      { net with server := server, toServer := net.toServer.eraseIdx index }
    match handled with
    -- a method that was not found, or not run, leaves a reply callback nobody uses
    | .invoke _ args =>
        { delivered with
          heldByServer :=
            (args.filterMap Argument.reply?).map (⟨·, flight.call⟩) ++ net.heldByServer }
    | .fire callback success response =>
        { delivered with firedAtServer := ⟨callback, success, response⟩ :: net.firedAtServer }
    | .ignored => delivered

/-- `ServerImpl.__onMessage` on a message in flight. -/
def deliverToClient (net : Net V) (index : Nat) : Option (Net V) :=
  net.toClient[index]?.map fun flight =>
    let (client, received) := ServerImpl.onMessage net.client flight.message.received
    let delivered :=
      { net with client := client, toClient := net.toClient.eraseIdx index }
    match received with
    | .invoke _ params =>
        { delivered with
          heldByClient :=
            (params.filterMap Argument.reply?).map (⟨·, flight.call⟩) ++ net.heldByClient }
    | .fire callback success response =>
        { delivered with firedAtClient := ⟨callback, success, response⟩ :: net.firedAtClient }
    | .ignored => delivered

/-- A method of the server uses the reply callback it was given. -/
def serverReplies (net : Net V) (index : Nat) (success : Bool) (response : V) :
    Option (Net V) :=
  net.heldByServer[index]?.map fun held =>
    let (callback, transmission) := RpcEndpoint.useReply .ok held.callback success response
    let used :=
      { net with heldByServer := net.heldByServer.set index { held with callback := callback } }
    match transmission.wire with
    | some message =>
        { used with
          toClient := ⟨message, held.call⟩ :: net.toClient
          givenByServer := (held.call, (success, response)) :: net.givenByServer }
    | none => used

/-- A method of the client uses the reply callback it was given. -/
def clientReplies (net : Net V) (index : Nat) (success : Bool) (response : V) :
    Option (Net V) :=
  net.heldByClient[index]?.map fun held =>
    let (callback, transmission) := ServerImpl.useReply .ok held.callback success response
    let used :=
      { net with heldByClient := net.heldByClient.set index { held with callback := callback } }
    match transmission.wire with
    | some request =>
        { used with
          toServer := ⟨request.parameter, held.call⟩ :: net.toServer
          givenByClient := (held.call, (success, response)) :: net.givenByClient }
    | none => used

end Net

/-- The connection of a client with a server whose class has the given public
methods. -/
def machine (methods : List Method) : Machine (Net V) (Action V) where
  init := .init
  next net
    | .clientCall method withCallback args => net.clientCall method withCallback args
    | .serverCall method args => net.serverCall method args
    | .serverTakeId method args => net.serverTakeId method args
    | .serverRegister index => net.serverRegister index
    | .serverSend index => net.serverSend index
    | .deliverToServer index => net.deliverToServer methods index
    | .deliverToClient index => net.deliverToClient index
    | .serverReplies index success response => net.serverReplies index success response
    | .clientReplies index success response => net.clientReplies index success response

/-! ## The two directions -/

namespace Net

/-- The calls the client makes. -/
def fromClient (net : Net V) : Direction V where
  asker := net.client
  inProgress := []
  requests := net.toServer
  held := net.heldByServer
  replies := net.toClient
  fired := net.firedAtClient
  given := net.givenByServer
  issued := net.clientCalls

/-- The calls the server makes. -/
def fromServer (net : Net V) : Direction V where
  asker := net.server.callbackTable
  inProgress := net.proxyCalls
  requests := net.toClient
  held := net.heldByClient
  replies := net.toServer
  fired := net.firedAtServer
  given := net.givenByClient
  issued := net.serverCalls

/-- Both directions are sound. -/
structure Sound (net : Net V) : Prop where
  client : net.fromClient.Sound
  server : net.fromServer.Sound

/-- Neither side's callback ids have started to repeat. -/
structure WithinIds (net : Net V) : Prop where
  client : net.clientCalls < 2 ^ 31
  server : net.serverCalls < 2 ^ 31

namespace Sound

variable {net next : Net V}

theorem init : (Net.init : Net V).Sound where
  client := Direction.Sound.initial
  server := Direction.Sound.initial

theorem clientCall (sound : net.Sound) (within : next.WithinIds) {method : String}
    {withCallback : Bool} {args : List V}
    (step : net.clientCall method withCallback args = some next) : next.Sound := by
  cases withCallback with
  | true =>
      cases step
      have below : net.clientCalls < 2 ^ 31 := (Nat.lt_succ_self _).trans within.client
      exact ⟨sound.client.ask below rfl, sound.server.cons_reply rfl⟩
  | false =>
      cases step
      exact ⟨sound.client.cons_request rfl, sound.server.cons_reply rfl⟩

theorem serverCall (sound : net.Sound) {method : Method} {args : Option (List V)}
    (step : net.serverCall method args = some next) : next.Sound := by
  unfold Net.serverCall at step
  split at step
  · cases step
  · rename_i noCallback
    have plain : RpcEndpoint.IH.hasCallback method = false := by simpa using noCallback
    cases refused : RpcEndpoint.IH.refusal method with
    | some exception =>
        simp [RpcEndpoint.IH.invoke, refused] at step
    | none =>
        simp only [RpcEndpoint.IH.invoke, refused, plain] at step
        cases step
        exact ⟨sound.client.cons_reply rfl, sound.server.cons_request rfl⟩

theorem serverTakeId (sound : net.Sound) (within : next.WithinIds) {method : Method}
    {args : List V} (step : net.serverTakeId method args = some next) : next.Sound := by
  unfold Net.serverTakeId at step
  split at step
  · cases step
    have below : net.serverCalls < 2 ^ 31 := (Nat.lt_succ_self _).trans within.server
    exact ⟨sound.client, sound.server.takeId below method args⟩
  · cases step

theorem serverRegister (sound : net.Sound) {index : Nat}
    (step : net.serverRegister index = some next) : next.Sound := by
  rcases Option.bind_eq_some_iff.mp step with ⟨proxyCall, present, registered⟩
  cases stage : proxyCall.stage with
  | tookId =>
      rw [stage] at registered
      cases registered
      exact ⟨sound.client, sound.server.register present stage⟩
  | registered =>
      rw [stage] at registered
      cases registered

theorem serverSend (sound : net.Sound) (within : next.WithinIds) {index : Nat}
    (step : net.serverSend index = some next) : next.Sound := by
  rcases Option.bind_eq_some_iff.mp step with ⟨proxyCall, present, sent⟩
  cases stage : proxyCall.stage with
  | tookId =>
      rw [stage] at sent
      cases sent
  | registered =>
      rw [stage] at sent
      cases sent
      exact ⟨sound.client.cons_reply rfl, sound.server.send within.server present stage rfl⟩

theorem deliverToServer (sound : net.Sound) {methods : List Method} {index : Nat}
    (step : net.deliverToServer methods index = some next) : next.Sound := by
  rcases Option.map_eq_some_iff.mp step with ⟨⟨message, call⟩, present, delivered⟩
  cases message with
  | invocation invocation =>
      have sameTable := RpcEndpoint.lookup_callbackTable methods net.server invocation.method
      cases delivered
      refine ⟨sound.client.accept present _, ?_⟩
      simp only [Message.received, RpcEndpoint.handleMessage_invocation, fromServer, sameTable]
      exact sound.server.erase_reply present rfl
  | callback answer =>
      have entry := sound.server.entry_of_reply present
      simp only [Message.received, RpcEndpoint.handleMessage_callback_of_some entry] at delivered
      cases delivered
      exact ⟨sound.client.erase_request present rfl, sound.server.redeem present⟩

theorem deliverToClient (sound : net.Sound) {index : Nat}
    (step : net.deliverToClient index = some next) : next.Sound := by
  rcases Option.map_eq_some_iff.mp step with ⟨⟨message, call⟩, present, delivered⟩
  cases message with
  | invocation invocation =>
      cases delivered
      exact ⟨sound.client.erase_reply present rfl, sound.server.accept present _⟩
  | callback answer =>
      have entry : net.client.callbacks answer.callbackId = some call :=
        sound.client.entry_of_reply present
      simp only [Message.received, ServerImpl.onMessage_callback_of_some entry] at delivered
      cases delivered
      exact ⟨sound.client.redeem present, sound.server.erase_request present rfl⟩

theorem serverReplies (sound : net.Sound) {index : Nat} {success : Bool} {response : V}
    (step : net.serverReplies index success response = some next) : next.Sound := by
  rcases Option.map_eq_some_iff.mp step with ⟨held, present, used⟩
  cases fired : held.callback.fired with
  | false =>
      simp only [RpcEndpoint.useReply, ReplyCallback.use_of_not_fired _ fired] at used
      cases used
      exact ⟨sound.client.answer present fired success response, sound.server.cons_request rfl⟩
  | true =>
      simp only [RpcEndpoint.useReply, ReplyCallback.use_of_fired _ fired,
        Held.set_same present] at used
      cases used
      exact sound

theorem clientReplies (sound : net.Sound) {index : Nat} {success : Bool} {response : V}
    (step : net.clientReplies index success response = some next) : next.Sound := by
  rcases Option.map_eq_some_iff.mp step with ⟨held, present, used⟩
  cases fired : held.callback.fired with
  | false =>
      simp only [ServerImpl.useReply, ReplyCallback.use_of_not_fired _ fired] at used
      cases used
      exact ⟨sound.client.cons_request rfl, sound.server.answer present fired success response⟩
  | true =>
      simp only [ServerImpl.useReply, ReplyCallback.use_of_fired _ fired,
        Held.set_same present] at used
      cases used
      exact sound

end Sound

/-- Every step is matched in both exchanges. -/
theorem Sound.next {methods : List Method} {net next : Net V} {action : Action V}
    (within : next.WithinIds) (step : (machine methods).next net action = some next)
    (sound : net.Sound) : next.Sound := by
  cases action with
  | clientCall method withCallback args => exact sound.clientCall within step
  | serverCall method args => exact sound.serverCall step
  | serverTakeId method args => exact sound.serverTakeId within step
  | serverRegister index => exact sound.serverRegister step
  | serverSend index => exact sound.serverSend within step
  | deliverToServer index => exact sound.deliverToServer step
  | deliverToClient index => exact sound.deliverToClient step
  | serverReplies index success response => exact sound.serverReplies step
  | clientReplies index success response => exact sound.clientReplies step

/-- Calls are only ever added. -/
theorem calls_le {methods : List Method} {net next : Net V} {action : Action V}
    (step : (machine methods).next net action = some next) :
    net.clientCalls ≤ next.clientCalls ∧ net.serverCalls ≤ next.serverCalls := by
  cases action with
  | clientCall method withCallback args =>
      cases withCallback <;> cases step <;> simp
  | serverCall method args =>
      simp only [machine, Net.serverCall] at step
      split at step
      · cases step
      · rcases Option.map_eq_some_iff.mp step with ⟨_, _, rfl⟩
        simp
  | serverTakeId method args =>
      simp only [machine, Net.serverTakeId] at step
      split at step <;> cases step
      simp
  | serverRegister index =>
      rcases Option.bind_eq_some_iff.mp step with ⟨_, _, registered⟩
      split at registered <;> cases registered
      simp
  | serverSend index =>
      rcases Option.bind_eq_some_iff.mp step with ⟨_, _, sent⟩
      split at sent <;> cases sent
      simp
  | deliverToServer index =>
      rcases Option.map_eq_some_iff.mp step with ⟨_, _, rfl⟩
      split
      split <;> simp
  | deliverToClient index =>
      rcases Option.map_eq_some_iff.mp step with ⟨_, _, rfl⟩
      split
      split <;> simp
  | serverReplies index success response =>
      rcases Option.map_eq_some_iff.mp step with ⟨_, _, rfl⟩
      split
      split <;> simp
  | clientReplies index success response =>
      rcases Option.map_eq_some_iff.mp step with ⟨_, _, rfl⟩
      split
      split <;> simp

/-- Both directions of a connection behave like exchanges in every run. -/
theorem sound_of_reachable {methods : List Method} {net : Net V}
    (reachable : (machine methods).Reachable net) (within : net.WithinIds) : net.Sound :=
  reachable.invariant_below Sound.init
    (fun step within =>
      ⟨(calls_le step).1.trans_lt within.client, (calls_le step).2.trans_lt within.server⟩)
    (fun within step sound => sound.next within step) within

end Net

/-- In every reachable state the callbacks that have fired on either side agree
with what the handlers on the other side gave for the very same calls. -/
theorem callback_agreement {methods : List Method} {net : Net V}
    (reachable : (machine methods).Reachable net)
    (clientCalls : net.clientCalls < 2 ^ 31) (serverCalls : net.serverCalls < 2 ^ 31) :
    Agreement net.firedAtClient net.givenByServer ∧
      Agreement net.firedAtServer net.givenByClient := by
  have sound := Net.sound_of_reachable reachable ⟨clientCalls, serverCalls⟩
  exact ⟨sound.client.agreement, sound.server.agreement⟩

/-- The public method of a server that logs clients in. -/
def loginMethods : List Method :=
  [{ name := "login"
     declaringClass := "samples.easychatroom2.server.ChatServerImpl"
     parameterTypes := ["java.lang.String", "com.google.gwt.core.client.Callback"]
     returnType := "void" }]

/-- Client and server call each other at the same time, both under id one, and
each answers after having been called. -/
def crossedCalls : List (Action Nat) :=
  let ping : Method :=
    { name := "ping"
      declaringClass := "samples.easychatroom2.shared.ChatClient"
      parameterTypes := ["com.google.gwt.core.client.Callback"]
      returnType := "void" }
  [.clientCall "login" true [7], .serverTakeId ping [], .serverRegister 0, .serverSend 0,
    .deliverToServer 0, .deliverToClient 0, .serverReplies 0 true 42, .clientReplies 0 false 13,
    .deliverToClient 0, .deliverToServer 0]

/-- The crossed calls do not get mixed up. -/
theorem callback_agreement_crossedCalls :
    ∃ net : Net Nat, (machine loginMethods).runFrom Net.init crossedCalls = some net ∧
      net.firedAtClient = [⟨0, true, 42⟩] ∧ net.firedAtServer = [⟨0, false, 13⟩] ∧
      Agreement net.firedAtClient net.givenByServer ∧
      Agreement net.firedAtServer net.givenByClient := by
  refine ⟨_, rfl, rfl, rfl, ?_⟩
  exact @callback_agreement _ loginMethods _ (Machine.reachable_of_run crossedCalls rfl)
    (by decide) (by decide)

end WebbitGwt.Rpc.WebSocket
