import WebbitGwt.Rpc.RpcEndpoint
import WebbitGwt.Transition.Core

/-!
# What a client can reach on the server object

`handleMessage` takes the first public method that has the name the client sent.
The generated client only sends names of remote methods, those of the server
interface that are not declared in `Server`; a server does not check that.  This
module says for which messages the check is not needed.
-/

namespace WebbitGwt.Rpc

open WebbitGwt.Java
open WebbitGwt.Transition

universe u v w

variable {Cb : Type u} {V : Type v} {W : Type w}

/-- `ServerCreator.isRemoteMethod`, for the direction from client to server. -/
def isRemoteMethod (method : Method) : Bool :=
  method.declaringClass != "com.colinalworth.gwt.websockets.shared.Server"

/-- The class of a server object: its public methods, in the order `getMethods`
returns them; the methods of its server interface, inherited ones included, with the
parameter types the class implements them under; the erased parameter types under
which it implements `Server.setClient`. -/
structure ServerClass where
  methods : List Method
  serverInterface : List Method
  clientTypes : List String

namespace ServerClass

/-- A public method of the class implements a remote method of the interface. -/
def isRemote (server : ServerClass) (method : Method) : Bool :=
  server.serverInterface.any fun declared =>
    isRemoteMethod declared && declared.name == method.name &&
      declared.parameterTypes == method.parameterTypes

/-- The method is `setClient`. -/
def setsClient (server : ServerClass) (method : Method) : Bool :=
  method.name == "setClient" &&
    server.clientTypes.any fun clientType => method.parameterTypes == [clientType]

/-- The first public method that has the name. -/
def firstNamed (server : ServerClass) (name : String) : Option Method :=
  server.methods.find? fun method => method.name == name

end ServerClass

/-- What `getClient` returns: the proxy that `onOpen` made, an argument of a reflective
call, or another object of the server. -/
inductive ClientRef (V : Type v)
  | proxy
  | argument (value : Argument V)
  | object (number : Nat)
  deriving DecidableEq

/-- An endpoint with its server object; the methods invoked on it are recorded. -/
structure Connection (Cb : Type u) (V : Type v) where
  endpoint : RpcEndpoint.State Cb
  client : ClientRef V
  invoked : List Method

/-- The connection after `onOpen`. -/
def Connection.opened : Connection Cb V where
  endpoint := .new
  client := .proxy
  invoked := []

section

variable (server : ServerClass) (admits : Method → List (Argument V) → Bool)

/-- The method that a message makes `handleMessage` run, with its arguments.
`Method.invoke` first checks access, the number of arguments and their types; a
method that was not found is not run either. -/
def reflected (endpoint : RpcEndpoint.State Cb) (message : ServerMessage V) :
    Option (Method × List (Argument V)) :=
  match (RpcEndpoint.handleMessage server.methods endpoint message).2 with
  | .invoke (some method) args => if admits method args then some (method, args) else none
  | _ => none

/-- What a reflective call of `setClient` does to the field behind `getClient`. -/
def clientAfter (method : Method) (args : List (Argument V)) (client : ClientRef V) :
    ClientRef V :=
  if server.setsClient method then
    match args with
    | [argument] => .argument argument
    | _ => client
  else
    client

/-- A message arrives. -/
def Connection.receive (connection : Connection Cb V) (message : ServerMessage V) :
    Connection Cb V :=
  let endpoint := (RpcEndpoint.handleMessage server.methods connection.endpoint message).1
  match reflected server admits connection.endpoint message with
  | none => { connection with endpoint := endpoint }
  | some (method, args) =>
      { endpoint := endpoint
        client := clientAfter server method args connection.client
        invoked := method :: connection.invoked }

/-- A message arrives; the server calls its client proxy; code of the server, which
may be a method that a message had run, calls `setClient`. -/
inductive ConnectionEvent (Cb : Type u) (V : Type v)
  | receive (message : ServerMessage V)
  | proxyCall (method : Method) (args : RpcEndpoint.IH.ProxyArgs V Cb)
  | setClient (client : ClientRef V)

/-- The life of a connection. -/
def connectionMachine (encodeResponse : ClientMessage V → Except String W) :
    Machine (Connection Cb V) (ConnectionEvent Cb V) where
  init := .opened
  next connection
    | .receive message => some (connection.receive server admits message)
    | .proxyCall method args =>
        some
          { connection with
            endpoint :=
              (RpcEndpoint.IH.invoke encodeResponse connection.endpoint method args).1 }
    | .setClient client => some { connection with client := client }

/-- A message only has remote methods run, and leaves `getClient` as it is. -/
structure Contained (connection : Connection Cb V) (message : ServerMessage V) : Prop where
  remote : ∀ method args,
    reflected server admits connection.endpoint message = some (method, args) →
      server.isRemote method
  client_eq : (connection.receive server admits message).client = connection.client

/-- The message does not name a method that the client should not run: the first
public method of its name, if it takes the arguments, is a remote method, and is
not `setClient` with another client. -/
def Harmless (client : ClientRef V) : ServerMessage V → Prop
  | .callback _ => True
  | .invocation invoke => ∀ method, server.firstNamed invoke.method = some method →
      admits method (invoke.arguments (invoke.parameters.getD [])) →
        server.isRemote method ∧
          (server.setsClient method → ∀ argument,
            invoke.arguments (invoke.parameters.getD []) = [argument] →
              client = .argument argument)

end

/-- The cache only remembers what a lookup would find. -/
def CacheSound (server : ServerClass) (endpoint : RpcEndpoint.State Cb) : Prop :=
  ∀ name method, endpoint.cachedMethods name = some method →
    server.firstNamed name = some method

variable {server : ServerClass} {admits : Method → List (Argument V) → Bool}

theorem CacheSound.new : CacheSound server (.new : RpcEndpoint.State Cb) := by
  intro name method cached
  cases cached

/-- With or without the cache, a lookup finds the first method of the name. -/
theorem CacheSound.lookup_fst {endpoint : RpcEndpoint.State Cb}
    (sound : CacheSound server endpoint) (name : String) :
    (RpcEndpoint.lookup server.methods endpoint name).1 = server.firstNamed name := by
  cases cached : endpoint.cachedMethods name with
  | some method => rw [RpcEndpoint.lookup, cached, sound name method cached]
  | none =>
      simp only [RpcEndpoint.lookup, cached, ServerClass.firstNamed]
      cases server.methods.find? fun method => method.name == name <;> rfl

theorem CacheSound.lookup_snd {endpoint : RpcEndpoint.State Cb}
    (sound : CacheSound server endpoint) (name : String) :
    CacheSound server (RpcEndpoint.lookup server.methods endpoint name).2 := by
  intro name' method remembered
  unfold RpcEndpoint.lookup at remembered
  split at remembered
  · exact sound name' method remembered
  · split at remembered
    · exact sound name' method remembered
    · rename_i found
      dsimp only at remembered
      by_cases sameName : name' = name
      · subst sameName
        rw [Function.update_self] at remembered
        exact found.trans remembered
      · rw [Function.update_of_ne sameName] at remembered
        exact sound name' method remembered

/-- Messages keep the cache sound. -/
theorem CacheSound.handleMessage {endpoint : RpcEndpoint.State Cb}
    (sound : CacheSound server endpoint) (message : ServerMessage V) :
    CacheSound server (RpcEndpoint.handleMessage server.methods endpoint message).1 := by
  cases message with
  | invocation invocation => exact sound.lookup_snd invocation.method
  | callback answer =>
      cases entry : endpoint.callbackTable.callbacks answer.callbackId with
      | none =>
          rw [RpcEndpoint.handleMessage_callback_of_none entry]
          exact sound
      | some callback =>
          rw [RpcEndpoint.handleMessage_callback_of_some entry]
          exact sound

/-- Calls on the client proxy do not touch the cache. -/
theorem RpcEndpoint.IH.invoke_cachedMethods (encodeResponse : ClientMessage V → Except String W)
    (endpoint : RpcEndpoint.State Cb) (method : Method) (args : ProxyArgs V Cb) :
    (invoke encodeResponse endpoint method args).1.cachedMethods = endpoint.cachedMethods := by
  unfold invoke
  split
  · rfl
  · split <;> rfl

/-- Nor do they make it unsound. -/
theorem CacheSound.invoke {endpoint : RpcEndpoint.State Cb} (sound : CacheSound server endpoint)
    (encodeResponse : ClientMessage V → Except String W) (method : Method)
    (args : RpcEndpoint.IH.ProxyArgs V Cb) :
    CacheSound server (RpcEndpoint.IH.invoke encodeResponse endpoint method args).1 := by
  intro name found cached
  rw [RpcEndpoint.IH.invoke_cachedMethods] at cached
  exact sound name found cached

/-- What an invocation has run, in terms of its name and arguments alone. -/
theorem reflected_invocation {endpoint : RpcEndpoint.State Cb}
    (sound : CacheSound server endpoint) (invoke : ServerInvocation V) (method : Method)
    (args : List (Argument V)) :
    reflected server admits endpoint (.invocation invoke) = some (method, args) ↔
      server.firstNamed invoke.method = some method ∧
        args = invoke.arguments (invoke.parameters.getD []) ∧ admits method args := by
  rw [reflected, RpcEndpoint.handleMessage_invocation, sound.lookup_fst]
  cases found : server.firstNamed invoke.method with
  | none => simp
  | some first =>
      simp only [Option.some.injEq, Option.ite_none_right_eq_some, Prod.mk.injEq]
      constructor
      · rintro ⟨admitted, rfl, rfl⟩
        exact ⟨rfl, rfl, admitted⟩
      · rintro ⟨rfl, rfl, admitted⟩
        exact ⟨admitted, rfl, rfl⟩

/-- Callback messages have no method run. -/
theorem reflected_callback (endpoint : RpcEndpoint.State Cb)
    (answer : ServerCallbackInvocation V) :
    reflected server admits endpoint (.callback answer) = none := by
  cases entry : endpoint.callbackTable.callbacks answer.callbackId with
  | none => simp only [reflected, RpcEndpoint.handleMessage_callback_of_none entry]
  | some callback => simp only [reflected, RpcEndpoint.handleMessage_callback_of_some entry]

theorem receive_client (connection : Connection Cb V) (message : ServerMessage V) :
    (connection.receive server admits message).client =
      match reflected server admits connection.endpoint message with
      | none => connection.client
      | some (method, args) => clientAfter server method args connection.client := by
  unfold Connection.receive
  cases reflected server admits connection.endpoint message <;> rfl

theorem receive_invoked (connection : Connection Cb V) (message : ServerMessage V) :
    (connection.receive server admits message).invoked =
      match reflected server admits connection.endpoint message with
      | none => connection.invoked
      | some (method, _) => method :: connection.invoked := by
  unfold Connection.receive
  cases reflected server admits connection.endpoint message <;> rfl

theorem receive_endpoint (connection : Connection Cb V) (message : ServerMessage V) :
    (connection.receive server admits message).endpoint =
      (RpcEndpoint.handleMessage server.methods connection.endpoint message).1 := by
  unfold Connection.receive
  cases reflected server admits connection.endpoint message <;> rfl

/-- Running a method changes the client exactly if it is `setClient` with another
client. -/
theorem clientAfter_eq_iff (method : Method) (args : List (Argument V)) (client : ClientRef V) :
    clientAfter server method args client = client ↔
      (server.setsClient method → ∀ argument, args = [argument] → client = .argument argument) := by
  unfold clientAfter
  split
  · rename_i sets
    split
    · simp [sets, eq_comm]
    · rename_i notSingle
      simp only [sets, true_iff, forall_const]
      intro argument single
      exact absurd single (notSingle argument)
  · rename_i leaves
    simp [leaves]

/-- A message is contained if and only if it is harmless. -/
theorem contained_iff {connection : Connection Cb V}
    (sound : CacheSound server connection.endpoint) (message : ServerMessage V) :
    Contained server admits connection message ↔
      Harmless server admits connection.client message := by
  cases message with
  | callback answer =>
      have noneRun : reflected server admits connection.endpoint (.callback answer) = none :=
        reflected_callback connection.endpoint answer
      refine ⟨fun _ => trivial, fun _ => ⟨?_, ?_⟩⟩
      · intro method args run
        rw [noneRun] at run
        cases run
      · rw [receive_client, noneRun]
  | invocation invoke =>
      constructor
      · intro contained method named admitted
        have run : reflected server admits connection.endpoint (.invocation invoke) =
            some (method, _) :=
          (reflected_invocation sound invoke method _).mpr ⟨named, rfl, admitted⟩
        have client_eq := contained.client_eq
        rw [receive_client, run] at client_eq
        exact ⟨contained.remote _ _ run, (clientAfter_eq_iff method _ _).mp client_eq⟩
      · intro harmless
        constructor
        · intro method args run
          rcases (reflected_invocation sound invoke method args).mp run with ⟨named, rfl, admitted⟩
          exact (harmless method named admitted).1
        · rw [receive_client]
          cases run : reflected server admits connection.endpoint (.invocation invoke) with
          | none => rfl
          | some reached =>
              rcases reached with ⟨method, args⟩
              obtain ⟨named, rfl, admitted⟩ :=
                (reflected_invocation sound invoke method args).mp run
              exact (clientAfter_eq_iff method _ _).mpr (harmless method named admitted).2

/-- The cache stays sound over the life of a connection. -/
theorem cacheSound_of_reachable {encodeResponse : ClientMessage V → Except String W}
    {connection : Connection Cb V}
    (reachable : (connectionMachine server admits encodeResponse).Reachable connection) :
    CacheSound server connection.endpoint := by
  refine reachable.invariant (P := fun connection => CacheSound server connection.endpoint)
    CacheSound.new ?_
  intro source target event _ step sound
  cases event with
  | receive message =>
      cases step
      rw [receive_endpoint]
      exact sound.handleMessage message
  | proxyCall method args =>
      cases step
      exact sound.invoke encodeResponse method args
  | setClient client =>
      cases step
      exact sound

/-- Only remote methods have been invoked, and `getClient` returns the proxy, or what
the server itself has set. -/
structure Connection.Pristine (server : ServerClass) (ownClients : ClientRef V → Prop)
    (connection : Connection Cb V) : Prop where
  cache : CacheSound server connection.endpoint
  remote : ∀ method ∈ connection.invoked, server.isRemote method
  client : connection.client = .proxy ∨ ownClients connection.client

/-- A message that is harmless while `getClient` returns the proxy always is. -/
theorem Harmless.of_proxy {message : ServerMessage V}
    (harmless : Harmless server admits .proxy message) (client : ClientRef V) :
    Harmless server admits client message := by
  cases message with
  | callback answer => trivial
  | invocation invoke =>
      intro method named admitted
      rcases harmless method named admitted with ⟨remote, keeps⟩
      refine ⟨remote, ?_⟩
      intro sets argument single
      cases keeps sets argument single

/-- A harmless message leaves a connection as clean as it was. -/
theorem Connection.Pristine.receive {connection : Connection Cb V}
    {ownClients : ClientRef V → Prop} (pristine : connection.Pristine server ownClients)
    {message : ServerMessage V} (harmless : Harmless server admits .proxy message) :
    (connection.receive server admits message).Pristine server ownClients := by
  have contained : Contained server admits connection message := by
    rw [contained_iff pristine.cache]
    exact harmless.of_proxy connection.client
  refine ⟨?_, ?_, by rw [contained.client_eq]; exact pristine.client⟩
  · rw [receive_endpoint]
    exact pristine.cache.handleMessage message
  · intro method invoked
    rw [receive_invoked] at invoked
    cases run : reflected server admits connection.endpoint message with
    | none =>
        rw [run] at invoked
        exact pristine.remote method invoked
    | some reached =>
        rw [run] at invoked
        rcases List.mem_cons.mp invoked with rfl | earlier
        · exact contained.remote _ _ run
        · exact pristine.remote method earlier

/-- The events at which a run may be clean: any but a harmful message. -/
def ConnectionEvent.Allowed (server : ServerClass)
    (admits : Method → List (Argument V) → Bool) : ConnectionEvent Cb V → Prop
  | .receive message => Harmless server admits .proxy message
  | .proxyCall _ _ | .setClient _ => True

/-- In a run without harmful messages only remote methods are invoked, and the client
stays the proxy unless the server itself sets another; and in every reachable state
the harmful messages are exactly those that have another method run or change the
client. -/
theorem remote_methods_only (server : ServerClass)
    (admits : Method → List (Argument V) → Bool)
    (encodeResponse : ClientMessage V → Except String W) :
    (∀ (events : List (ConnectionEvent Cb V)) (connection : Connection Cb V),
      (connectionMachine server admits encodeResponse).runFrom .opened events =
        some connection →
      (∀ event ∈ events, event.Allowed server admits) →
        (∀ method ∈ connection.invoked, server.isRemote method) ∧
          (connection.client = .proxy ∨ .setClient connection.client ∈ events)) ∧
    (∀ (connection : Connection Cb V) (message : ServerMessage V),
      (connectionMachine server admits encodeResponse).Reachable connection →
        (Contained server admits connection message ↔
          Harmless server admits connection.client message)) := by
  constructor
  · intro events connection run allowed
    have pristine : connection.Pristine server fun client => .setClient client ∈ events := by
      have presentAllowed : ∀ event ∈ events, event ∈ events ∧ event.Allowed server admits :=
        fun event present => ⟨present, allowed event present⟩
      refine Machine.runFrom_invariant ?_ run presentAllowed
        ⟨CacheSound.new, nofun, Or.inl rfl⟩
      rintro source target event ⟨present, allowed⟩ step pristine
      cases event with
      | receive message =>
          cases step
          exact pristine.receive allowed
      | proxyCall method args =>
          cases step
          exact ⟨pristine.cache.invoke encodeResponse method args, pristine.remote,
            pristine.client⟩
      | setClient client =>
          cases step
          exact ⟨pristine.cache, pristine.remote, Or.inr present⟩
    exact ⟨pristine.remote, pristine.client⟩
  · intro connection message reachable
    exact contained_iff (cacheSound_of_reachable reachable) message

/-- `ChatServer` of the sample: what it declares, and what it inherits from `Server`. -/
def chatServerInterface : List Method :=
  [⟨"login", "samples.easychatroom2.shared.ChatServer",
      ["java.lang.String", "com.google.gwt.core.client.Callback"], "void"⟩,
    ⟨"say", "samples.easychatroom2.shared.ChatServer", ["java.lang.String"], "void"⟩,
    ⟨"onOpen", "com.colinalworth.gwt.websockets.shared.Server",
      ["com.colinalworth.gwt.websockets.shared.Server$Connection",
        "com.colinalworth.gwt.websockets.shared.Client"], "void"⟩,
    ⟨"onClose", "com.colinalworth.gwt.websockets.shared.Server",
      ["com.colinalworth.gwt.websockets.shared.Server$Connection",
        "com.colinalworth.gwt.websockets.shared.Client"], "void"⟩,
    ⟨"onError", "com.colinalworth.gwt.websockets.shared.Server", ["java.lang.Throwable"],
      "void"⟩,
    ⟨"getClient", "com.colinalworth.gwt.websockets.shared.Server", [],
      "com.colinalworth.gwt.websockets.shared.Client"⟩,
    ⟨"setClient", "com.colinalworth.gwt.websockets.shared.Server",
      ["com.colinalworth.gwt.websockets.shared.Client"], "void"⟩,
    ⟨"close", "com.colinalworth.gwt.websockets.shared.Server", [], "void"⟩]

/-- The chat server of the sample: what it declares, with the bridge method that the
compiler adds for `onClose`, and what it inherits from `AbstractServerImpl`, `RpcEndpoint`
and `Object`. -/
def chatServerImpl : ServerClass where
  methods :=
    [⟨"login", "samples.easychatroom2.server.ChatServerImpl",
        ["java.lang.String", "com.google.gwt.core.client.Callback"], "void"⟩,
      ⟨"say", "samples.easychatroom2.server.ChatServerImpl", ["java.lang.String"], "void"⟩,
      ⟨"onError", "samples.easychatroom2.server.ChatServerImpl", ["java.lang.Throwable"],
        "void"⟩,
      ⟨"onClose", "samples.easychatroom2.server.ChatServerImpl",
        ["com.colinalworth.gwt.websockets.shared.Server$Connection",
          "samples.easychatroom2.shared.ChatClient"], "void"⟩,
      ⟨"onClose", "samples.easychatroom2.server.ChatServerImpl",
        ["com.colinalworth.gwt.websockets.shared.Server$Connection",
          "com.colinalworth.gwt.websockets.shared.Client"], "void"⟩,
      ⟨"onOpen", "com.colinalworth.gwt.websockets.server.AbstractServerImpl",
        ["com.colinalworth.gwt.websockets.shared.Server$Connection",
          "com.colinalworth.gwt.websockets.shared.Client"], "void"⟩,
      ⟨"getClient", "com.colinalworth.gwt.websockets.server.AbstractServerImpl", [],
        "com.colinalworth.gwt.websockets.shared.Client"⟩,
      ⟨"setClient", "com.colinalworth.gwt.websockets.server.AbstractServerImpl",
        ["com.colinalworth.gwt.websockets.shared.Client"], "void"⟩,
      ⟨"close", "com.colinalworth.gwt.websockets.server.AbstractServerImpl", [], "void"⟩,
      ⟨"handleMessage", "com.colinalworth.gwt.websockets.server.RpcEndpoint",
        ["javax.websocket.Session", "java.lang.String"], "void"⟩,
      ⟨"onOpen", "com.colinalworth.gwt.websockets.server.RpcEndpoint",
        ["javax.websocket.Session"], "void"⟩,
      ⟨"onClose", "com.colinalworth.gwt.websockets.server.RpcEndpoint",
        ["javax.websocket.Session"], "void"⟩,
      ⟨"wait", "java.lang.Object", [], "void"⟩,
      ⟨"wait", "java.lang.Object", ["long"], "void"⟩,
      ⟨"wait", "java.lang.Object", ["long", "int"], "void"⟩,
      ⟨"equals", "java.lang.Object", ["java.lang.Object"], "boolean"⟩,
      ⟨"toString", "java.lang.Object", [], "java.lang.String"⟩,
      ⟨"hashCode", "java.lang.Object", [], "int"⟩,
      ⟨"getClass", "java.lang.Object", [], "java.lang.Class"⟩,
      ⟨"notify", "java.lang.Object", [], "void"⟩,
      ⟨"notifyAll", "java.lang.Object", [], "void"⟩]
  serverInterface := chatServerInterface
  clientTypes := ["com.colinalworth.gwt.websockets.shared.Client"]

/-- Null fits every reference type, a string fits `String`. -/
def admitsStrings (method : Method) (args : List (Argument (Option String))) : Bool :=
  args.length == method.parameterTypes.length &&
    (args.zip method.parameterTypes).all fun (argument, type) =>
      match argument with
      | .value none => true
      | .value (some _) => type == "java.lang.String"
      | .reply _ => type == "com.google.gwt.core.client.Callback"

/-- A client says something. -/
def saysHello : List (ConnectionEvent Nat (Option String)) :=
  [.receive (.invocation ⟨"say", some [some "hello"], 0⟩)]

/-- Saying something is harmless. -/
theorem remote_methods_only_say :
    ∃ connection : Connection Nat (Option String),
      (connectionMachine (W := Nat) chatServerImpl admitsStrings fun _ => .ok 0).runFrom
        .opened saysHello = some connection ∧
      connection.invoked =
        [⟨"say", "samples.easychatroom2.server.ChatServerImpl", ["java.lang.String"], "void"⟩] ∧
      (∀ method ∈ connection.invoked, chatServerImpl.isRemote method) ∧
      (connection.client = .proxy ∨ .setClient connection.client ∈ saysHello) := by
  refine ⟨_, rfl, by decide, ?_⟩
  refine (remote_methods_only chatServerImpl admitsStrings fun _ => .ok 0).1 saysHello _ rfl ?_
  intro event present
  rw [saysHello, List.mem_singleton] at present
  subst present
  intro method named admitted
  cases named
  exact ⟨by decide, fun sets => absurd sets (by decide)⟩

/-- A client sets the client to null. -/
theorem setClient_reachable :
    ∃ connection : Connection Nat (Option String),
      (connectionMachine (W := Nat) chatServerImpl admitsStrings fun _ => .ok 0).runFrom
        .opened [.receive (.invocation ⟨"setClient", some [none], 0⟩)] = some connection ∧
      ¬ (∀ method ∈ connection.invoked, chatServerImpl.isRemote method) ∧
      connection.client = .argument (.value none) := by
  refine ⟨_, rfl, by decide, by decide⟩

end WebbitGwt.Rpc
