import WebbitGwt.Rpc.WebSocket

/-!
# Code that runs inside a connection

`ServerImpl` hands over to code of the application: methods of the client, callbacks,
event handlers, and the error handler.  That code makes calls and uses reply callbacks
while it runs, may catch what they throw, and may throw itself.  Objects need not be
serializable here, the connection need not be open, and messages need not be readable at
the other end.

All this runs on the one thread of a page.  A run of it is simulated by a connection on
which every call and every reply is a step of its own, and nothing fails; a message that
is lost stays in flight there.
-/

namespace WebbitGwt.Rpc.UserCode

open WebbitGwt.Exchange (Place Token)
open WebbitGwt.Java
open WebbitGwt.Transition
open WebbitGwt.Rpc.WebSocket

universe u

variable {V : Type u}

/-- Who is told of an exception: a client, the error handler, `GWT.log`, or, if nothing
catches it, the browser. -/
inductive Listener
  | client (client : Nat)
  | errorHandler
  | log
  | browser
  deriving DecidableEq

/-- How far the socket has got. -/
inductive ReadyState
  | connecting
  | opened
  | closed
  deriving DecidableEq

/-- What code of the application does to the connection, step after step.  It goes on
with what a call or a reply throws, if it does; and each says what the error handler
would do if it were told of an error in it. -/
inductive Code (V : Type u)
  | returns
  | throws (exception : Throwable)
  | setClient (client : Option Nat) (rest : Code V)
  | call (method : String) (withCallback : Bool) (args : List V) (errorHandler : Code V)
      (rest : Option Throwable → Code V)
  | reply (index : Nat) (success : Bool) (response : V) (errorHandler : Code V)
      (rest : Option Throwable → Code V)

/-- What is settled before the connection is opened: the messages that a side cannot
serialize, with the text of the exception; whether there is an error handler; and the
public methods of the server. -/
structure Setup (V : Type u) where
  clientRefuses : ServerMessage V → Option String
  serverRefuses : ClientMessage V → Option String
  hasErrorHandler : Bool
  methods : List Method

/-- What is serialized is received as it is. -/
def Setup.serialize (setup : Setup V) (request : ServerImpl.Request V) :
    Except String (ServerImpl.Request V) :=
  match setup.clientRefuses request.parameter with
  | none => .ok request
  | some message => .error message

/-- Likewise at the server. -/
def Setup.encodeResponse (setup : Setup V) (object : ClientMessage V) :
    Except String (ClientMessage V) :=
  match setup.serverRefuses object with
  | none => .ok object
  | some message => .error message

/-- A connection, the `client` field of `ServerImpl`, the messages that got lost because
they could not be serialized, sent or read, and who has been told of what. -/
structure System (V : Type u) extends Net V where
  readyState : ReadyState
  currentClient : Option Nat
  lostToServer : List (Flight V)
  lostToClient : List (Flight V)
  told : List (Listener × Throwable)

/-- A fresh connection. -/
def System.init : System V where
  toNet := .init
  readyState := .connecting
  currentClient := none
  lostToServer := []
  lostToClient := []
  told := []

namespace System

/-- Tell somebody of an exception. -/
def tell (system : System V) (listener : Listener) (exception : Throwable) : System V :=
  { system with told := system.told ++ [(listener, exception)] }

/-- What the `send` of a socket that is not open yet throws. -/
def invalidState : Throwable :=
  .userException "com.google.gwt.core.client.JavaScriptException: (InvalidStateError)"

/-- `send`, if the object could be serialized.  A closed socket discards it. -/
def postToServer (system : System V) (transmission : Transmission (ServerImpl.Request V))
    (message : ServerMessage V) (call : Nat) :
    System V × Transmission (ServerImpl.Request V) :=
  let lost : System V :=
    { system with lostToServer := ⟨message, call⟩ :: system.lostToServer }
  match transmission.wire, system.readyState with
  | some request, .opened =>
      ({ system with toServer := ⟨request.parameter, call⟩ :: system.toServer }, transmission)
  | some _, .connecting => (lost, { wire := none, thrown := some invalidState })
  | some _, .closed => (lost, { wire := none })
  | none, _ => (lost, transmission)

/-- A message is on its way to the client, or it could not be serialized. -/
def postToClient (system : System V) (object : Option (ClientMessage V))
    (message : ClientMessage V) (call : Nat) : System V :=
  match object with
  | some object => { system with toClient := ⟨object, call⟩ :: system.toClient }
  | none => { system with lostToClient := ⟨message, call⟩ :: system.lostToClient }

/-- A call of the generated client proxy, up to the error handler. -/
def clientCall (setup : Setup V) (system : System V) (method : String) (withCallback : Bool)
    (args : List V) : System V × Transmission (ServerImpl.Request V) :=
  let callback := if withCallback then some system.clientCalls else none
  let (table, transmission) :=
    ServerImpl.sendMessage setup.serialize system.client method callback (some args)
  let called : System V :=
    { system with
      client := table
      clientCalls := if withCallback then system.clientCalls + 1 else system.clientCalls }
  let invocation : ServerInvocation V :=
    { method := method
      parameters := some args
      callbackId := (system.client.registerNullable callback).1 }
  called.postToServer transmission (.invocation invocation) system.clientCalls

/-- The use of a reply callback by the client, up to the error handler.  What a callback
was given counts, whether or not it can be sent. -/
def clientReply (setup : Setup V) (system : System V) (index : Nat) (success : Bool)
    (response : V) : System V × Transmission (ServerImpl.Request V) :=
  match system.heldByClient[index]? with
  | none => (system, {})
  | some held =>
      let (callback, transmission) :=
        ServerImpl.useReply setup.serialize held.callback success response
      if held.callback.fired then
        (system, transmission)
      else
        let used : System V :=
          { system with
            heldByClient := system.heldByClient.set index { held with callback := callback }
            givenByClient := (held.call, (success, response)) :: system.givenByClient }
        used.postToServer transmission
          (.callback ⟨held.callback.callbackId, response, success⟩) held.call

end System

/-- Tell the error handler, or `GWT.log` if there is none. -/
def report (setup : Setup V) (exception : Throwable)
    (errorHandler : System V → System V × Option Throwable) (system : System V) :
    System V × Option Throwable :=
  if setup.hasErrorHandler then
    errorHandler (system.tell .errorHandler exception)
  else
    (system.tell .log exception, none)

/-- The `catch` clause of `__sendMessage` and `__sendCallback`.  If the error handler
throws, its exception takes the place of the one that would be thrown after it. -/
def afterSending (setup : Setup V) (errorHandler : System V → System V × Option Throwable) :
    System V × Transmission (ServerImpl.Request V) → System V × Option Throwable
  | (system, transmission) =>
      match transmission.reported with
      | none => (system, transmission.thrown)
      | some exception =>
          let (handled, thrown) := report setup exception errorHandler system
          (handled, thrown.or transmission.thrown)

/-- Run code of the application: what becomes of the connection, and what is thrown. -/
def Code.run (setup : Setup V) : Code V → System V → System V × Option Throwable
  | .returns, system => (system, none)
  | .throws exception, system => (system, some exception)
  | .setClient client rest, system => rest.run setup { system with currentClient := client }
  | .call method withCallback args errorHandler rest, system =>
      let (sent, thrown) := afterSending setup (errorHandler.run setup)
        (system.clientCall setup method withCallback args)
      (rest thrown).run setup sent
  | .reply index success response errorHandler rest, system =>
      let (sent, thrown) := afterSending setup (errorHandler.run setup)
        (system.clientReply setup index success response)
      (rest thrown).run setup sent

/-- The code that a message may make the page run: what is invoked or fired; the client's
`onError`, if that throws; and the error handler. -/
structure Reactions (V : Type u) where
  handle : Code V
  onError : Code V := .returns
  errorHandler : Code V := .returns

/-- The `catch` clause of `__onMessage`.  It is the client at that time that is told. -/
def catchError (setup : Setup V) (onError : Code V) :
    System V × Option Throwable → System V × Option Throwable
  | (system, none) => (system, none)
  | (system, some exception) =>
      match system.currentClient with
      | some client => onError.run setup (system.tell (.client client) exception)
      | none => (system, some exception)

/-- What nothing catches. -/
def uncaught : System V × Option Throwable → System V
  | (system, none) => system
  | (system, some exception) => system.tell .browser exception

/-- The `catch` clause of `onmessage`. -/
def catchMessage (setup : Setup V) (errorHandler : Code V) :
    System V × Option Throwable → System V
  | (system, none) => system
  | (system, some exception) =>
      uncaught (report setup exception (errorHandler.run setup) system)

namespace System

/-- `__onMessage` on an object that could be read, up to the `catch` clauses. -/
def onMessage (setup : Setup V) (handle : Code V) (flight : Flight V) (delivered : Net V)
    (system : System V) : System V × Option Throwable :=
  match (ServerImpl.onMessage system.client flight.message.received).2 with
  | .ignored => ({ system with toNet := delivered }, none)
  | .invoke _ _ | .fire _ _ _ => handle.run setup { system with toNet := delivered }

/-- `connection.onmessage` -/
def onmessage (setup : Setup V) (system : System V) (index : Nat) (reactions : Reactions V) :
    Option (System V) :=
  if system.readyState = .opened then
    system.toClient[index]?.bind fun flight =>
      (system.toNet.deliverToClient index).map fun delivered =>
        catchMessage setup reactions.errorHandler
          (catchError setup reactions.onError
            (system.onMessage setup reactions.handle flight delivered))
  else
    none

/-- A message on its way to the client gets lost. -/
def loseToClient (system : System V) (index : Nat) : Option (System V) :=
  system.toClient[index]?.map fun flight =>
    { system with
      toClient := system.toClient.eraseIdx index
      lostToClient := flight :: system.lostToClient }

/-- `connection.onmessage` on a message that cannot be read. -/
def onmessageGarbled (setup : Setup V) (system : System V) (index : Nat) (exception : Throwable)
    (errorHandler : Code V) : Option (System V) :=
  if system.readyState = .opened then
    (system.loseToClient index).map fun lost =>
      catchMessage setup errorHandler (lost, some exception)
  else
    none

/-- `connection.onopen` and `connection.onclose`: the client is called if there is one. -/
def notify (setup : Setup V) (system : System V) (code : Code V) : System V :=
  if system.currentClient.isSome then uncaught (code.run setup system) else system

/-- The socket opens. -/
def onopen (setup : Setup V) (system : System V) (code : Code V) : Option (System V) :=
  if system.readyState = .connecting then
    some (System.notify setup { system with readyState := .opened } code)
  else
    none

/-- The socket closes, or has failed to open. -/
def onclose (setup : Setup V) (system : System V) (code : Code V) : Option (System V) :=
  if system.readyState = .closed then
    none
  else
    some (System.notify setup { system with readyState := .closed } code)

/-- A closed socket gets no messages. -/
def discard (system : System V) (index : Nat) : Option (System V) :=
  if system.readyState = .closed then system.loseToClient index else none

/-- The server cannot read a message, or does not get it. -/
def serverGarbled (system : System V) (index : Nat) : Option (System V) :=
  system.toServer[index]?.map fun flight =>
    { system with
      toServer := system.toServer.eraseIdx index
      lostToServer := flight :: system.lostToServer }

/-- A call without callback that cannot be serialized does nothing at the server. -/
def serverCall (setup : Setup V) (system : System V) (method : Method)
    (args : Option (List V)) : Option (System V) :=
  if RpcEndpoint.IH.hasCallback method then none
  else
    match RpcEndpoint.IH.invoke setup.encodeResponse system.server method (.plain args) with
    | (server, transmission) =>
        transmission.wire.map fun message =>
          { system with
            server := server
            toClient := ⟨message, system.serverCalls⟩ :: system.toClient }

/-- Build the invocation, encode and send it. -/
def serverSend (setup : Setup V) (system : System V) (index : Nat) : Option (System V) :=
  system.proxyCalls[index]?.bind fun proxyCall =>
    match proxyCall.stage with
    | .tookId => none
    | .registered =>
        let transmission := RpcEndpoint.IH.send setup.encodeResponse proxyCall.method
          (some proxyCall.args) proxyCall.callbackId
        let invocation : ClientInvocation V :=
          { method := proxyCall.method.name
            parameters := some proxyCall.args
            callbackId := proxyCall.callbackId }
        let ended : System V := { system with proxyCalls := system.proxyCalls.eraseIdx index }
        some (ended.postToClient transmission.wire (.invocation invocation) proxyCall.call)

/-- A method of the server uses the reply callback it was given. -/
def serverReplies (setup : Setup V) (system : System V) (index : Nat) (success : Bool)
    (response : V) : Option (System V) :=
  system.heldByServer[index]?.map fun held =>
    let (callback, transmission) :=
      RpcEndpoint.useReply setup.encodeResponse held.callback success response
    if held.callback.fired then
      system
    else
      let used : System V :=
        { system with
          heldByServer := system.heldByServer.set index { held with callback := callback }
          givenByServer := (held.call, (success, response)) :: system.givenByServer }
      used.postToClient transmission.wire
        (.callback ⟨held.callback.callbackId, response, success⟩) held.call

end System

/-- What happens in the page: code of the application runs, the connection is opened or
closed or fails, or a message arrives.  And what happens at the server. -/
inductive Action (V : Type u)
  | runs (code : Code V)
  | opens (onOpen : Code V)
  | closes (onClose : Code V)
  | fails (exception : Throwable) (errorHandler : Code V)
  | message (index : Nat) (reactions : Reactions V)
  | garbled (index : Nat) (exception : Throwable) (errorHandler : Code V)
  | discards (index : Nat)
  | serverCall (method : Method) (args : Option (List V))
  | serverTakeId (method : Method) (args : List V)
  | serverRegister (index : Nat)
  | serverSend (index : Nat)
  | serverMessage (index : Nat)
  | serverGarbled (index : Nat)
  | serverReplies (index : Nat) (success : Bool) (response : V)

/-- The page and the server. -/
def machine (setup : Setup V) : Machine (System V) (Action V) where
  init := .init
  next system
    | .runs code => some (uncaught (code.run setup system))
    | .opens onOpen => system.onopen setup onOpen
    | .closes onClose => system.onclose setup onClose
    | .fails exception errorHandler =>
        some (uncaught (report setup exception (errorHandler.run setup) system))
    | .message index reactions => system.onmessage setup index reactions
    | .garbled index exception errorHandler =>
        system.onmessageGarbled setup index exception errorHandler
    | .discards index => system.discard index
    | .serverCall method args => system.serverCall setup method args
    | .serverTakeId method args =>
        (system.toNet.serverTakeId method args).map fun net => { system with toNet := net }
    | .serverRegister index =>
        (system.toNet.serverRegister index).map fun net => { system with toNet := net }
    | .serverSend index => system.serverSend setup index
    | .serverMessage index =>
        (system.toNet.deliverToServer setup.methods index).map fun net =>
          { system with toNet := net }
    | .serverGarbled index => system.serverGarbled index
    | .serverReplies index success response => system.serverReplies setup index success response

/-! ## The connection where nothing fails -/

/-- A connection can get into the same state where nothing is lost, except that the lost
messages are in flight, in some order, and will not arrive. -/
def Simulated (setup : Setup V) (system : System V) : Prop :=
  ∃ toServer toClient : List (Flight V),
    toServer.Perm (system.toServer ++ system.lostToServer) ∧
      toClient.Perm (system.toClient ++ system.lostToClient) ∧
      (WebSocket.machine setup.methods).Reachable
        { system.toNet with toServer := toServer, toClient := toClient }

variable {setup : Setup V} {system : System V}

/-- What is sent is what was to be serialized. -/
theorem parameter_of_wire {request sent : ServerImpl.Request V}
    (wire : (ServerImpl.transmit setup.serialize request).wire = some sent) :
    sent.parameter = request.parameter := by
  unfold ServerImpl.transmit Setup.serialize at wire
  cases refused : setup.clientRefuses request.parameter with
  | none =>
      simp only [refused, Option.some.injEq] at wire
      rw [wire]
  | some message =>
      simp only [refused] at wire
      cases wire

/-- Likewise at the server. -/
theorem encoded_eq {message object : ClientMessage V}
    (encodes : setup.encodeResponse message = .ok object) : object = message := by
  unfold Setup.encodeResponse at encodes
  split at encodes
  · exact (Except.ok.inj encodes).symm
  · cases encodes

theorem wire_of_send {method : Method} {args : Option (List V)} {callbackId : JInt}
    {object : ClientMessage V}
    (wire : (RpcEndpoint.IH.send setup.encodeResponse method args callbackId).wire = some object) :
    object = .invocation ⟨method.name, args, callbackId⟩ := by
  unfold RpcEndpoint.IH.send at wire
  split at wire
  · rename_i encodes
    cases wire
    exact encoded_eq encodes
  · cases wire

theorem wire_of_sendCallback {callbackId : JInt} {response : V} {success : Bool}
    {object : ClientMessage V}
    (wire : (RpcEndpoint.sendCallback setup.encodeResponse callbackId response success).wire =
      some object) :
    object = .callback ⟨callbackId, response, success⟩ := by
  unfold RpcEndpoint.sendCallback at wire
  split at wire
  · rename_i encodes
    cases wire
    exact encoded_eq encodes
  · cases wire

namespace Simulated

theorem init : Simulated setup (.init : System V) :=
  ⟨[], [], .nil, .nil, .init⟩

/-- Sent or lost, a message for the server is one more in flight. -/
theorem postToServer (toServer toClient : List (Flight V))
    {transmission : Transmission (ServerImpl.Request V)} {message : ServerMessage V} {call : Nat}
    (sameServer : toServer.Perm (system.toServer ++ system.lostToServer))
    (sameClient : toClient.Perm (system.toClient ++ system.lostToClient))
    (wire : ∀ request, transmission.wire = some request → request.parameter = message)
    (reachable : (WebSocket.machine setup.methods).Reachable
      { system.toNet with toServer := ⟨message, call⟩ :: toServer, toClient := toClient }) :
    Simulated setup (system.postToServer transmission message call).1 := by
  refine ⟨⟨message, call⟩ :: toServer, toClient, ?_, ?_, ?_⟩
  · cases sent : transmission.wire with
    | none =>
        simp only [System.postToServer, sent]
        exact (sameServer.cons _).trans List.perm_middle.symm
    | some request =>
        cases state : system.readyState with
        | opened =>
            simp only [System.postToServer, sent, state, wire request sent]
            exact sameServer.cons _
        | connecting | closed =>
            simp only [System.postToServer, sent, state]
            exact (sameServer.cons _).trans List.perm_middle.symm
  · unfold System.postToServer
    split <;> exact sameClient
  · unfold System.postToServer
    split <;> exact reachable

/-- Likewise for the client. -/
theorem postToClient (toServer toClient : List (Flight V)) {object : Option (ClientMessage V)}
    {message : ClientMessage V} {call : Nat}
    (sameServer : toServer.Perm (system.toServer ++ system.lostToServer))
    (sameClient : toClient.Perm (system.toClient ++ system.lostToClient))
    (sent : ∀ other, object = some other → other = message)
    (reachable : (WebSocket.machine setup.methods).Reachable
      { system.toNet with toServer := toServer, toClient := ⟨message, call⟩ :: toClient }) :
    Simulated setup (system.postToClient object message call) := by
  cases object with
  | none =>
      exact ⟨toServer, _, sameServer, (sameClient.cons _).trans List.perm_middle.symm, reachable⟩
  | some other =>
      rw [sent other rfl]
      exact ⟨toServer, _, sameServer, sameClient.cons _, reachable⟩

theorem clientCall (simulated : Simulated setup system) (method : String) (withCallback : Bool)
    (args : List V) : Simulated setup (system.clientCall setup method withCallback args).1 := by
  rcases simulated with ⟨toServer, toClient, sameServer, sameClient, reachable⟩
  cases withCallback with
  | true =>
      refine postToServer toServer toClient sameServer sameClient
        (fun request wire => parameter_of_wire wire) ?_
      exact reachable.step (show (WebSocket.machine setup.methods).next _
        (.clientCall method true args) = _ from rfl)
  | false =>
      refine postToServer toServer toClient sameServer sameClient
        (fun request wire => parameter_of_wire wire) ?_
      exact reachable.step (show (WebSocket.machine setup.methods).next _
        (.clientCall method false args) = _ from rfl)

theorem clientReply (simulated : Simulated setup system) (index : Nat) (success : Bool)
    (response : V) : Simulated setup (system.clientReply setup index success response).1 := by
  cases present : system.heldByClient[index]? with
  | none =>
      rw [System.clientReply, present]
      exact simulated
  | some held =>
      cases fired : held.callback.fired with
      | true =>
          simp only [System.clientReply, present, fired, if_true]
          exact simulated
      | false =>
          rcases simulated with ⟨toServer, toClient, sameServer, sameClient, reachable⟩
          simp only [System.clientReply, present, fired, Bool.false_eq_true, if_false]
          simp only [ServerImpl.useReply, ReplyCallback.use_of_not_fired _ fired]
          refine postToServer toServer toClient sameServer sameClient
            (fun request wire => parameter_of_wire wire) ?_
          refine reachable.step (show (WebSocket.machine setup.methods).next _
            (.clientReplies index success response) = _ from ?_)
          simp only [WebSocket.machine, Net.clientReplies, present, Option.map_some,
            ServerImpl.useReply, ReplyCallback.use_of_not_fired _ fired]
          rfl

/-- Whoever is told, the connection is the same. -/
theorem report (simulated : Simulated setup system) (exception : Throwable)
    {errorHandler : System V → System V × Option Throwable}
    (handles : ∀ system, Simulated setup system → Simulated setup (errorHandler system).1) :
    Simulated setup (UserCode.report setup exception errorHandler system).1 := by
  unfold UserCode.report
  split
  · exact handles _ simulated
  · exact simulated

theorem afterSending {errorHandler : System V → System V × Option Throwable}
    (handles : ∀ system, Simulated setup system → Simulated setup (errorHandler system).1)
    {sent : System V × Transmission (ServerImpl.Request V)} (simulated : Simulated setup sent.1) :
    Simulated setup (UserCode.afterSending setup errorHandler sent).1 := by
  rcases sent with ⟨system, transmission⟩
  cases reported : transmission.reported with
  | none =>
      simp only [UserCode.afterSending, reported]
      exact simulated
  | some exception =>
      simp only [UserCode.afterSending, reported]
      exact simulated.report exception handles

/-- Code of the application takes the connection where calls and replies take it that are
made one after the other. -/
theorem run (code : Code V) (simulated : Simulated setup system) :
    Simulated setup (code.run setup system).1 := by
  induction code generalizing system with
  | returns => exact simulated
  | throws exception => exact simulated
  | setClient client rest ih =>
      exact @ih { system with currentClient := client } simulated
  | call method withCallback args errorHandler rest handles ih =>
      have sent := simulated.clientCall method withCallback args
      exact ih _ (sent.afterSending fun _ before => handles before)
  | reply index success response errorHandler rest handles ih =>
      have sent := simulated.clientReply index success response
      exact ih _ (sent.afterSending fun _ before => handles before)

theorem uncaught {ended : System V × Option Throwable} (simulated : Simulated setup ended.1) :
    Simulated setup (UserCode.uncaught ended) := by
  rcases ended with ⟨system, _ | exception⟩ <;> exact simulated

theorem catchError {ended : System V × Option Throwable} (simulated : Simulated setup ended.1)
    (onError : Code V) : Simulated setup (UserCode.catchError setup onError ended).1 := by
  rcases ended with ⟨system, _ | exception⟩
  · exact simulated
  · unfold UserCode.catchError
    split
    · rename_i listening
      cases listening
    · rename_i listening
      cases listening
      split
      · exact run onError simulated
      · exact simulated

theorem catchMessage {ended : System V × Option Throwable} (simulated : Simulated setup ended.1)
    (errorHandler : Code V) : Simulated setup (UserCode.catchMessage setup errorHandler ended) := by
  rcases ended with ⟨system, _ | exception⟩
  · exact simulated
  · exact (simulated.report exception fun _ before => run errorHandler before).uncaught

theorem notify (simulated : Simulated setup system) (code : Code V) :
    Simulated setup (system.notify setup code) := by
  unfold System.notify
  split
  · exact (run code simulated).uncaught
  · exact simulated

/-- A message in flight is in flight where nothing is lost, if somewhere else. -/
theorem getElem?_of_perm {flights rest lost : List (Flight V)} (same : flights.Perm (rest ++ lost))
    {index : Nat} {flight : Flight V} (present : rest[index]? = some flight) :
    ∃ position, flights[position]? = some flight ∧
      (flights.eraseIdx position).Perm (rest.eraseIdx index ++ lost) := by
  rcases List.getElem?_eq_some_iff.mp present with ⟨inBounds, rfl⟩
  have isIn : rest[index] ∈ flights :=
    same.mem_iff.mpr (List.mem_append_left lost (List.getElem_mem inBounds))
  rcases List.mem_iff_getElem.mp isIn with ⟨position, below, found⟩
  refine ⟨position, List.getElem?_eq_some_iff.mpr ⟨below, found⟩, ?_⟩
  have front := List.getElem_cons_eraseIdx_perm below
  have middle := (List.getElem_cons_eraseIdx_perm inBounds).append_right lost
  rw [found] at front
  exact List.Perm.cons_inv (front.trans (same.trans middle.symm))

/-- A message arrives, and nothing else has happened yet. -/
theorem delivered (simulated : Simulated setup system) {index : Nat} {net : Net V}
    (arrives : system.toNet.deliverToClient index = some net) :
    Simulated setup { system with toNet := net } := by
  rcases simulated with ⟨toServer, toClient, sameServer, sameClient, reachable⟩
  rcases Option.map_eq_some_iff.mp arrives with ⟨flight, present, rfl⟩
  rcases getElem?_of_perm sameClient present with ⟨position, found, erased⟩
  rcases outcome : ServerImpl.onMessage system.client flight.message.received
    with ⟨table, received⟩
  simp only
  refine ⟨toServer, toClient.eraseIdx position, ?_, ?_, ?_⟩
  · cases received <;> exact sameServer
  · cases received <;> exact erased
  · refine reachable.step (show (WebSocket.machine setup.methods).next _
      (.deliverToClient position) = _ from ?_)
    simp only [WebSocket.machine, Net.deliverToClient, found, Option.map_some, outcome]
    cases received <;> rfl

theorem serverMessage (simulated : Simulated setup system) {index : Nat} {net : Net V}
    (arrives : system.toNet.deliverToServer setup.methods index = some net) :
    Simulated setup { system with toNet := net } := by
  rcases simulated with ⟨toServer, toClient, sameServer, sameClient, reachable⟩
  rcases Option.map_eq_some_iff.mp arrives with ⟨flight, present, rfl⟩
  rcases getElem?_of_perm sameServer present with ⟨position, found, erased⟩
  rcases outcome : RpcEndpoint.handleMessage setup.methods system.server flight.message.received
    with ⟨server, handled⟩
  simp only
  refine ⟨toServer.eraseIdx position, toClient, ?_, ?_, ?_⟩
  · cases handled <;> exact erased
  · cases handled <;> exact sameClient
  · refine reachable.step (show (WebSocket.machine setup.methods).next _
      (.deliverToServer position) = _ from ?_)
    simp only [WebSocket.machine, Net.deliverToServer, found, Option.map_some, outcome]
    cases handled <;> rfl

/-- What is lost on its way is in flight for good. -/
theorem loseToClient (simulated : Simulated setup system) {index : Nat} {lost : System V}
    (loses : system.loseToClient index = some lost) : Simulated setup lost := by
  rcases simulated with ⟨toServer, toClient, sameServer, sameClient, reachable⟩
  rcases Option.map_eq_some_iff.mp loses with ⟨flight, present, rfl⟩
  rcases List.getElem?_eq_some_iff.mp present with ⟨inBounds, rfl⟩
  refine ⟨toServer, toClient, sameServer, sameClient.trans ?_, reachable⟩
  exact ((List.getElem_cons_eraseIdx_perm inBounds).symm.append_right _).trans
    List.perm_middle.symm

theorem serverGarbled (simulated : Simulated setup system) {index : Nat} {lost : System V}
    (loses : system.serverGarbled index = some lost) : Simulated setup lost := by
  rcases simulated with ⟨toServer, toClient, sameServer, sameClient, reachable⟩
  rcases Option.map_eq_some_iff.mp loses with ⟨flight, present, rfl⟩
  rcases List.getElem?_eq_some_iff.mp present with ⟨inBounds, rfl⟩
  refine ⟨toServer, toClient, sameServer.trans ?_, sameClient, reachable⟩
  exact ((List.getElem_cons_eraseIdx_perm inBounds).symm.append_right _).trans
    List.perm_middle.symm

/-- Code that a message runs finds the message gone, and the callback it fires too. -/
theorem onmessage (simulated : Simulated setup system) {index : Nat} {reactions : Reactions V}
    {next : System V} (step : system.onmessage setup index reactions = some next) :
    Simulated setup next := by
  simp only [System.onmessage, Option.ite_none_right_eq_some] at step
  rcases step with ⟨_, handled⟩
  rcases Option.bind_eq_some_iff.mp handled with ⟨flight, _, handled⟩
  rcases Option.map_eq_some_iff.mp handled with ⟨net, arrives, rfl⟩
  have after := simulated.delivered arrives
  have ran : Simulated setup (system.onMessage setup reactions.handle flight net).1 := by
    unfold System.onMessage
    split
    · exact after
    · exact run reactions.handle after
    · exact run reactions.handle after
  exact (ran.catchError reactions.onError).catchMessage reactions.errorHandler

theorem onmessageGarbled (simulated : Simulated setup system) {index : Nat}
    {exception : Throwable} {errorHandler : Code V} {next : System V}
    (step : system.onmessageGarbled setup index exception errorHandler = some next) :
    Simulated setup next := by
  simp only [System.onmessageGarbled, Option.ite_none_right_eq_some] at step
  rcases step with ⟨_, handled⟩
  rcases Option.map_eq_some_iff.mp handled with ⟨lost, loses, rfl⟩
  have after := simulated.loseToClient loses
  exact @catchMessage _ _ (lost, some exception) after errorHandler

theorem serverTakeId (simulated : Simulated setup system) {method : Method} {args : List V}
    {net : Net V} (taken : system.toNet.serverTakeId method args = some net) :
    Simulated setup { system with toNet := net } := by
  rcases simulated with ⟨toServer, toClient, sameServer, sameClient, reachable⟩
  simp only [Net.serverTakeId, Option.ite_none_right_eq_some] at taken
  rcases taken with ⟨allowed, taken⟩
  cases taken
  refine ⟨toServer, toClient, sameServer, sameClient, ?_⟩
  refine reachable.step (show (WebSocket.machine setup.methods).next _
    (.serverTakeId method args) = _ from ?_)
  simp only [WebSocket.machine, Net.serverTakeId, if_pos allowed]

theorem serverRegister (simulated : Simulated setup system) {index : Nat} {net : Net V}
    (registered : system.toNet.serverRegister index = some net) :
    Simulated setup { system with toNet := net } := by
  rcases simulated with ⟨toServer, toClient, sameServer, sameClient, reachable⟩
  rcases Option.bind_eq_some_iff.mp registered with ⟨proxyCall, present, put⟩
  cases stage : proxyCall.stage with
  | registered =>
      rw [stage] at put
      cases put
  | tookId =>
      rw [stage] at put
      cases put
      refine ⟨toServer, toClient, sameServer, sameClient, ?_⟩
      refine reachable.step (show (WebSocket.machine setup.methods).next _
        (.serverRegister index) = _ from ?_)
      simp only [WebSocket.machine, Net.serverRegister, present, Option.bind_some, stage]

theorem serverCall (simulated : Simulated setup system) {method : Method}
    {args : Option (List V)} {next : System V}
    (step : system.serverCall setup method args = some next) : Simulated setup next := by
  rcases simulated with ⟨toServer, toClient, sameServer, sameClient, reachable⟩
  simp only [System.serverCall, Option.ite_none_left_eq_some] at step
  rcases step with ⟨noCallback, step⟩
  rcases Option.map_eq_some_iff.mp step with ⟨message, wire, rfl⟩
  have plain : RpcEndpoint.IH.hasCallback method = false := by simpa using noCallback
  cases refused : RpcEndpoint.IH.refusal method with
  | some exception => simp [RpcEndpoint.IH.invoke, refused] at wire
  | none =>
      simp only [RpcEndpoint.IH.invoke, refused, plain] at wire ⊢
      have sent := wire_of_send wire
      subst sent
      refine ⟨toServer, _, sameServer, sameClient.cons _, ?_⟩
      refine reachable.step (show (WebSocket.machine setup.methods).next _
        (.serverCall method args) = _ from ?_)
      simp only [WebSocket.machine, Net.serverCall, RpcEndpoint.IH.invoke, refused, plain,
        Bool.false_eq_true, if_false]
      rfl

theorem serverSend (simulated : Simulated setup system) {index : Nat} {next : System V}
    (step : system.serverSend setup index = some next) : Simulated setup next := by
  rcases simulated with ⟨toServer, toClient, sameServer, sameClient, reachable⟩
  rcases Option.bind_eq_some_iff.mp step with ⟨proxyCall, present, sent⟩
  cases stage : proxyCall.stage with
  | tookId =>
      rw [stage] at sent
      cases sent
  | registered =>
      rw [stage] at sent
      cases sent
      refine postToClient toServer toClient sameServer sameClient
        (fun _ wire => wire_of_send wire) ?_
      refine reachable.step (show (WebSocket.machine setup.methods).next _
        (.serverSend index) = _ from ?_)
      simp only [WebSocket.machine, Net.serverSend, present, Option.bind_some, stage]
      rfl

theorem serverReplies (simulated : Simulated setup system) {index : Nat} {success : Bool}
    {response : V} {next : System V}
    (step : system.serverReplies setup index success response = some next) :
    Simulated setup next := by
  rcases Option.map_eq_some_iff.mp step with ⟨held, present, replied⟩
  cases fired : held.callback.fired with
  | true =>
      simp only [fired, if_true] at replied
      cases replied
      exact simulated
  | false =>
      rcases simulated with ⟨toServer, toClient, sameServer, sameClient, reachable⟩
      simp only [fired, Bool.false_eq_true, if_false, RpcEndpoint.useReply,
        ReplyCallback.use_of_not_fired _ fired] at replied
      cases replied
      refine postToClient toServer toClient sameServer sameClient
        (fun _ wire => wire_of_sendCallback wire) ?_
      refine reachable.step (show (WebSocket.machine setup.methods).next _
        (.serverReplies index success response) = _ from ?_)
      simp only [WebSocket.machine, Net.serverReplies, present, Option.map_some,
        RpcEndpoint.useReply, ReplyCallback.use_of_not_fired _ fired]
      rfl

end Simulated

/-- Every run of the page and the server is a run of calls, replies and messages one after
the other, in which nothing fails. -/
theorem simulated_of_reachable (reachable : (machine setup).Reachable system) :
    Simulated setup system := by
  refine reachable.invariant .init ?_
  intro source target action _ step before
  cases action with
  | runs code =>
      cases step
      exact (before.run code).uncaught
  | opens onOpen =>
      simp only [machine, System.onopen, Option.ite_none_right_eq_some] at step
      rcases step with ⟨_, opened⟩
      cases opened
      exact @Simulated.notify _ _ { source with readyState := .opened } before onOpen
  | closes onClose =>
      simp only [machine, System.onclose, Option.ite_none_left_eq_some] at step
      rcases step with ⟨_, closed⟩
      cases closed
      exact @Simulated.notify _ _ { source with readyState := .closed } before onClose
  | fails exception errorHandler =>
      cases step
      exact (before.report exception fun _ earlier => earlier.run errorHandler).uncaught
  | message index reactions => exact before.onmessage step
  | garbled index exception errorHandler => exact before.onmessageGarbled step
  | discards index =>
      simp only [machine, System.discard, Option.ite_none_right_eq_some] at step
      exact before.loseToClient step.2
  | serverCall method args => exact before.serverCall step
  | serverTakeId method args =>
      rcases Option.map_eq_some_iff.mp step with ⟨net, taken, rfl⟩
      exact before.serverTakeId taken
  | serverRegister index =>
      rcases Option.map_eq_some_iff.mp step with ⟨net, registered, rfl⟩
      exact before.serverRegister registered
  | serverSend index => exact before.serverSend step
  | serverMessage index =>
      rcases Option.map_eq_some_iff.mp step with ⟨net, arrives, rfl⟩
      exact before.serverMessage arrives
  | serverGarbled index => exact before.serverGarbled step
  | serverReplies index success response => exact before.serverReplies step

/-! ## What becomes of calls -/

/-- The calls whose invocation or answer is among the given messages. -/
def callsOf (requests replies : List (Flight V)) : List Nat :=
  (requests.filterMap Flight.request? ++ replies.filterMap Flight.reply?).map Token.call

/-- Calls are accounted for: a call's callback has fired once, with what the other side
gave for it, or a message got lost; and it is registered in that case only. -/
structure Accounted (table : CallbackTable Nat) (fired : List (Fired V)) (lost : List Nat)
    (issued : Nat) : Prop where
  every_call : (fired.map Fired.call ++ lost).Perm (List.range issued)
  registered_iff : ∀ callbackId call, table.callbacks callbackId = some call ↔
    call ∈ lost ∧ callbackId = CallbackTable.idOf call

/-- A call is waited for as long as its invocation or its answer is in flight. -/
theorem outstanding_of_mem {requests replies : List (Flight V)} {token : CallToken V}
    (present : token ∈ requests.filterMap Flight.request? ++ replies.filterMap Flight.reply?) :
    token.place.outstanding := by
  rcases List.mem_append.mp present with request | reply
  · rcases List.mem_filterMap.mp request with ⟨⟨⟨invocation⟩ | answer, call⟩, _, found⟩
    · simp only [Flight.request?, Option.ite_none_right_eq_some, Option.some.injEq] at found
      rw [← found.2]
      rfl
    · cases found
  · rcases List.mem_filterMap.mp reply with ⟨⟨⟨invocation⟩ | answer, call⟩, _, found⟩
    · cases found
    · cases found
      rfl

/-- Where messages stay in flight that do not arrive, and there is nothing else. -/
theorem accounted_of_sound {direction : Direction V} (sound : direction.Sound)
    (settled : direction.inProgress = []) (allUsed : ∀ held ∈ direction.held, held.callback.fired) :
    Accounted direction.asker direction.fired (callsOf direction.requests direction.replies)
      direction.issued := by
  have conserved := sound.reachable.conserved
  have noHeld : direction.held.filterMap (Held.token? (V := V)) = [] := by
    rw [List.filterMap_eq_nil_iff]
    intro held present
    rw [Held.token?, if_pos (allUsed held present)]
  have places : direction.exchange.tokens =
      ((direction.fired.map Fired.token ++ (direction.requests.filterMap Flight.request? ++
        direction.replies.filterMap Flight.reply?) : List (CallToken V)) :
        Multiset (CallToken V)) := by
    simp only [Direction.exchange, Direction.tokens, settled, noHeld, List.map_nil,
      Multiset.coe_nil, ← Multiset.coe_add]
    abel
  constructor
  · have calls := conserved.calls_eq
    rw [places, Multiset.map_coe, List.map_append, List.map_map] at calls
    have perm := Multiset.coe_eq_coe.mp calls
    exact perm
  · intro callbackId call
    constructor
    · intro entry
      rcases (conserved.table_iff callbackId call).mp entry with ⟨place, outstanding, present⟩
      refine ⟨?_, conserved.key_eq _ present⟩
      rw [places, Multiset.mem_coe, List.mem_append] at present
      rcases present with fired | waiting
      · rcases List.mem_map.mp fired with ⟨_, _, same⟩
        cases same
        cases outstanding
      · exact List.mem_map.mpr ⟨_, waiting, rfl⟩
    · rintro ⟨lost, rfl⟩
      rcases List.mem_map.mp lost with ⟨token, waiting, rfl⟩
      have present : token ∈ direction.exchange.tokens := by
        rw [places, Multiset.mem_coe]
        exact List.mem_append_right _ waiting
      refine (conserved.table_iff _ _).mpr ⟨token.place, outstanding_of_mem waiting, ?_⟩
      rw [← conserved.key_eq token present]
      exact present

theorem perm_callsOf {requests otherRequests replies otherReplies : List (Flight V)}
    (sameRequests : requests.Perm otherRequests) (sameReplies : replies.Perm otherReplies) :
    (callsOf requests replies).Perm (callsOf otherRequests otherReplies) :=
  ((sameRequests.filterMap _).append (sameReplies.filterMap _)).map _

theorem Accounted.of_perm {table : CallbackTable Nat} {fired : List (Fired V)}
    {lost other : List Nat} {issued : Nat} (accounted : Accounted table fired lost issued)
    (same : lost.Perm other) : Accounted table fired other issued where
  every_call := (same.symm.append_left _).trans accounted.every_call
  registered_iff callbackId call := by
    rw [accounted.registered_iff, same.mem_iff]

/-- Nothing is in flight, no call is being made, and every reply callback has been used. -/
structure System.AtRest (system : System V) : Prop where
  toServer : system.toServer = []
  toClient : system.toClient = []
  proxyCalls : system.proxyCalls = []
  heldByServer : ∀ held ∈ system.heldByServer, held.callback.fired
  heldByClient : ∀ held ∈ system.heldByClient, held.callback.fired

/-- Callbacks agree with what was given for them; and at rest the calls of both sides are
accounted for. -/
structure Conservation (system : System V) : Prop where
  client_agreement : Agreement system.firedAtClient system.givenByServer
  server_agreement : Agreement system.firedAtServer system.givenByClient
  client_accounted : system.AtRest → Accounted system.client system.firedAtClient
    (callsOf system.lostToServer system.lostToClient) system.clientCalls
  server_accounted : system.AtRest → Accounted system.server.callbackTable system.firedAtServer
    (callsOf system.lostToClient system.lostToServer) system.serverCalls

/-- Whatever code of the application does in between, throws and catches, and whatever
fails to be serialized, sent or read. -/
theorem user_code_conservation (reachable : (machine setup).Reachable system)
    (clientCalls : system.clientCalls < 2 ^ 31) (serverCalls : system.serverCalls < 2 ^ 31) :
    Conservation system := by
  rcases simulated_of_reachable reachable with
    ⟨toServer, toClient, sameServer, sameClient, reachableNet⟩
  have sound := Net.sound_of_reachable reachableNet ⟨clientCalls, serverCalls⟩
  refine ⟨sound.client.agreement, sound.server.agreement, ?_, ?_⟩
  · intro atRest
    have lostServer := sameServer
    have lostClient := sameClient
    rw [atRest.toServer, List.nil_append] at lostServer
    rw [atRest.toClient, List.nil_append] at lostClient
    exact (accounted_of_sound sound.client rfl atRest.heldByServer).of_perm
      (perm_callsOf lostServer lostClient)
  · intro atRest
    have lostServer := sameServer
    have lostClient := sameClient
    rw [atRest.toServer, List.nil_append] at lostServer
    rw [atRest.toClient, List.nil_append] at lostClient
    exact (accounted_of_sound sound.server atRest.proxyCalls atRest.heldByClient).of_perm
      (perm_callsOf lostClient lostServer)

/-- The number thirteen cannot be serialized, and the server logs clients in. -/
def superstitious : Setup Nat where
  clientRefuses
    | .invocation ⟨_, some [13], _⟩ => some "13"
    | _ => none
  serverRefuses _ := none
  hasErrorHandler := true
  methods := WebSocket.loginMethods

/-- What fails inside a callback is thrown on, and the client takes its leave when it is
told. -/
def failsInCallback : List (Action Nat) :=
  [.runs (.setClient (some 0) .returns),
    .opens (.call "login" true [7] .returns fun _ => .returns),
    .serverMessage 0, .serverReplies 0 true 42,
    .message 0
      { handle :=
          .call "say" true [13] .returns fun thrown => .throws (thrown.getD .nullPointerException)
        onError := .setClient none .returns }]

/-- The error handler and the client are told, and the second callback is left over. -/
theorem user_code_conservation_failsInCallback :
    ∃ system, (machine superstitious).runFrom .init failsInCallback = some system ∧
      system.told =
        [(.errorHandler, .serializationException "13"),
          (.client 0, (Throwable.serializationException "13").wrap)] ∧
      system.currentClient = none ∧ system.firedAtClient = [⟨0, true, 42⟩] ∧
      system.client.callbacks 2 = some 1 ∧ Conservation system := by
  refine ⟨_, rfl, rfl, rfl, rfl, rfl, ?_⟩
  exact @user_code_conservation _ superstitious _ (Machine.reachable_of_run failsInCallback rfl)
    (by decide) (by decide)

end WebbitGwt.Rpc.UserCode
