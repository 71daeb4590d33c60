import WebbitGwt.Rebind.Overloads

/-!
# The types a generated proxy can serialize

Both generators collect the types that may go over the wire in loops over the methods
that the two interfaces declare themselves, and then write code for the methods they
inherit as well.  A type that is not collected makes no difference until a call is made:
the serializer knows the collected types only.
-/

namespace WebbitGwt.Rebind

open WebbitGwt.Java

/-- The wrapper class of a primitive type, or of `void`. -/
def boxedSourceName : String → String
  | "boolean" => "java.lang.Boolean"
  | "byte" => "java.lang.Byte"
  | "char" => "java.lang.Character"
  | "short" => "java.lang.Short"
  | "int" => "java.lang.Integer"
  | "long" => "java.lang.Long"
  | "float" => "java.lang.Float"
  | "double" => "java.lang.Double"
  | _ => "java.lang.Void"

/-- The type that an argument of the given static type has in an `Object[]`, when it is
an instance of just that type. -/
def JType.runtimeType : JType → JType
  | .primitive name => .reference (boxedSourceName name)
  | type => type

/-- A method with the type arguments of its last parameter; a raw type has none. -/
structure GenericMethod extends JMethod where
  typeArgs : Option (JType × JType)
  deriving DecidableEq

namespace GenericMethod

/-- The types of the result and of the failure that the callback of a method takes.  A
raw `Callback` takes objects. -/
def callbackTypes (method : GenericMethod) : List JType :=
  if method.hasCallback then
    match method.typeArgs with
    | some (t, f) => [t, f]
    | none => [.reference "java.lang.Object", .reference "java.lang.Object"]
  else []

/-- The root types that `appendCallbackParameters` adds for one method:
`param.getType().isParameterized()` is null for a raw `Callback`. -/
def callbackRoots (method : GenericMethod) : Except Throwable (List JType) :=
  if method.hasCallback then
    match method.typeArgs with
    | some (t, f) => .ok [t, f]
    | none => .error .nullPointerException
  else .ok []

theorem callbackTypes_of_callbackRoots {method : GenericMethod} {roots : List JType}
    (added : method.callbackRoots = .ok roots) : roots = method.callbackTypes := by
  unfold callbackRoots at added
  unfold callbackTypes
  split at added
  · rename_i takesCallback
    rw [if_pos takesCallback]
    split at added
    · exact (Except.ok.inj added).symm
    · cases added
  · rename_i noCallback
    rw [if_neg noCallback]
    exact (Except.ok.inj added).symm

/-- What a raw `Callback` leads to. -/
theorem callbackRoots_error {method : GenericMethod} {exception : Throwable}
    (stopped : method.callbackRoots = .error exception) : exception = .nullPointerException := by
  unfold callbackRoots at stopped
  split at stopped
  · split at stopped
    · cases stopped
    · exact (Except.error.inj stopped).symm
  · cases stopped

end GenericMethod

/-- What the type oracle knows of an interface: the methods it declares itself, and those
it has. -/
structure JClassType where
  qualifiedSourceName : String
  methods : List GenericMethod
  inheritableMethods : List GenericMethod
  methods_enclosed : ∀ method ∈ methods, method.enclosingType = qualifiedSourceName
  methods_inheritable : ∀ method ∈ methods, method ∈ inheritableMethods

/-- The methods among the given ones that are not those of the super class. -/
def remoteMethods (superClass : String) (methods : List GenericMethod) : List GenericMethod :=
  methods.filter fun method => isRemoteFor superClass method.toJMethod

/-- `appendMethodParameters`, the types of all parameters but a callback in the last place. -/
def appendMethodParameters (superClass : String) (methods : List GenericMethod) : List JType :=
  (remoteMethods superClass methods).flatMap fun method => method.valueTypes

/-- `appendCallbackParameters` -/
def appendCallbackParameters (superClass : String) :
    List GenericMethod → Except Throwable (List JType)
  | [] => .ok []
  | method :: rest =>
      if isRemoteFor superClass method.toJMethod then
        method.callbackRoots.bind fun roots =>
          (appendCallbackParameters superClass rest).map (roots ++ ·)
      else
        appendCallbackParameters superClass rest

/-- What `ServerCreator` and `RemoteEndpointCreator` do not have in common: the super
classes their loops pass to `isRemoteMethod`, for the interface whose proxy is generated
and for the one whose calls are dispatched, and the messages they add by name. -/
structure Creator where
  collectRemote : String
  collectLocal : String
  emitRemote : String
  emitLocal : String
  sentMessages : List String
  receivedMessages : List String

/-- `ServerCreator` -/
def serverCreator : Creator where
  collectRemote := "com.colinalworth.gwt.websockets.shared.Server"
  collectLocal := "com.colinalworth.gwt.websockets.shared.Client"
  emitRemote := "com.colinalworth.gwt.websockets.shared.Server"
  emitLocal := "com.colinalworth.gwt.websockets.shared.Client"
  sentMessages :=
    ["com.colinalworth.gwt.websockets.shared.impl.ServerInvocation",
      "com.colinalworth.gwt.websockets.shared.impl.ServerCallbackInvocation"]
  receivedMessages :=
    ["com.colinalworth.gwt.websockets.shared.impl.ClientInvocation",
      "com.colinalworth.gwt.websockets.shared.impl.ClientCallbackInvocation"]

/-- `RemoteEndpointCreator`, which was made from `ServerCreator` and still collects the
types of the remote endpoint with the filter for servers. -/
def remoteEndpointCreator : Creator where
  collectRemote := "com.colinalworth.gwt.websockets.shared.Server"
  collectLocal := "com.colinalworth.gwt.worker.client.Endpoint"
  emitRemote := "com.colinalworth.gwt.worker.client.Endpoint"
  emitLocal := "com.colinalworth.gwt.worker.client.Endpoint"
  sentMessages :=
    ["com.colinalworth.gwt.worker.client.impl.RemoteInvocation",
      "com.colinalworth.gwt.worker.client.impl.RemoteCallbackInvocation"]
  receivedMessages :=
    ["com.colinalworth.gwt.worker.client.impl.RemoteInvocation",
      "com.colinalworth.gwt.worker.client.impl.RemoteCallbackInvocation"]

/-- What is generated: the root types of the two serializers, the methods that get a
proxy body, and those that get a branch in `__invoke`. -/
structure Generated where
  clientSerializer : List JType
  serverSerializer : List JType
  proxies : List GenericMethod
  branches : List GenericMethod

/-- `create`, for the interface that is implemented by the proxy and the one it is
parameterized with. -/
def Creator.create (creator : Creator) (remoteType localType : JClassType) :
    Except Throwable Generated :=
  (appendCallbackParameters creator.collectRemote remoteType.methods).bind fun remoteResults =>
    (appendCallbackParameters creator.collectLocal localType.methods).map fun localResults =>
      { serverSerializer :=
          appendMethodParameters creator.collectLocal localType.methods ++ remoteResults ++
            creator.receivedMessages.map .reference
        clientSerializer :=
          appendMethodParameters creator.collectRemote remoteType.methods ++ localResults ++
            creator.sentMessages.map .reference
        proxies := remoteMethods creator.emitRemote remoteType.inheritableMethods
        branches := remoteMethods creator.emitLocal localType.inheritableMethods }

/-- Whatever a call puts in the params array, and whatever its callback is told, is of a
registered type, as far as it is of the declared type.  A single array of references is
itself the params array, so it is its own type that counts. -/
structure Generated.Covers (generated : Generated) : Prop where
  sent_arguments : ∀ method ∈ generated.proxies,
    ∀ type ∈ (printServerMethodBody method.toJMethod).arguments,
      type.runtimeType ∈ generated.clientSerializer
  received_results : ∀ method ∈ generated.proxies, ∀ type ∈ method.callbackTypes,
    type ∈ generated.serverSerializer
  received_arguments : ∀ method ∈ generated.branches, ∀ type ∈ method.valueTypes,
    type.runtimeType ∈ generated.serverSerializer
  sent_results : ∀ method ∈ generated.branches, ∀ type ∈ method.callbackTypes,
    type ∈ generated.clientSerializer

/-! ## What is collected -/

/-- A type is that of a parameter or of a callback of one of the methods, or one of the
messages. -/
def Collected (values results : List GenericMethod) (messages : List String)
    (type : JType) : Prop :=
  (∃ method ∈ values, type ∈ method.valueTypes) ∨
    (∃ method ∈ results, type ∈ method.callbackTypes) ∨ type ∈ messages.map .reference

/-- The declared methods of the two interfaces have the type sent by the proxy. -/
def Creator.Sends (creator : Creator) (remoteType localType : JClassType) : JType → Prop :=
  Collected (remoteMethods creator.collectRemote remoteType.methods)
    (remoteMethods creator.collectLocal localType.methods) creator.sentMessages

/-- The declared methods of the two interfaces have the type sent to the proxy. -/
def Creator.Receives (creator : Creator) (remoteType localType : JClassType) : JType → Prop :=
  Collected (remoteMethods creator.collectLocal localType.methods)
    (remoteMethods creator.collectRemote remoteType.methods) creator.receivedMessages

/-- Without a raw `Callback`, the collected types are those of the callbacks. -/
theorem mem_appendCallbackParameters_iff {superClass : String} {methods : List GenericMethod}
    {roots : List JType} (added : appendCallbackParameters superClass methods = .ok roots)
    (type : JType) :
    type ∈ roots ↔ ∃ method ∈ remoteMethods superClass methods, type ∈ method.callbackTypes := by
  induction methods generalizing roots with
  | nil =>
      cases added
      simp [remoteMethods]
  | cons method rest ih =>
      unfold appendCallbackParameters at added
      by_cases remote : isRemoteFor superClass method.toJMethod = true
      · have kept : remoteMethods superClass (method :: rest) =
            method :: remoteMethods superClass rest := List.filter_cons_of_pos remote
        rw [if_pos remote] at added
        cases first : method.callbackRoots with
        | error exception =>
            rw [first] at added
            cases added
        | ok own =>
            cases later : appendCallbackParameters superClass rest with
            | error exception =>
                rw [first, later] at added
                cases added
            | ok others =>
                rw [first, later] at added
                cases added
                rw [List.mem_append, ih later, kept, List.exists_mem_cons_iff,
                  GenericMethod.callbackTypes_of_callbackRoots first]
      · have skipped : remoteMethods superClass (method :: rest) =
            remoteMethods superClass rest := List.filter_cons_of_neg remote
        rw [if_neg remote] at added
        rw [skipped, ih added]

/-- What a generator that succeeds has collected and emitted. -/
structure Creator.Creates (creator : Creator) (remoteType localType : JClassType)
    (generated : Generated) : Prop where
  mem_clientSerializer_iff : ∀ type,
    type ∈ generated.clientSerializer ↔ creator.Sends remoteType localType type
  mem_serverSerializer_iff : ∀ type,
    type ∈ generated.serverSerializer ↔ creator.Receives remoteType localType type
  proxies_eq : generated.proxies = remoteMethods creator.emitRemote remoteType.inheritableMethods
  branches_eq : generated.branches = remoteMethods creator.emitLocal localType.inheritableMethods

theorem Creator.creates {creator : Creator} {remoteType localType : JClassType}
    {generated : Generated} (created : creator.create remoteType localType = .ok generated) :
    creator.Creates remoteType localType generated := by
  unfold create at created
  cases remote : appendCallbackParameters creator.collectRemote remoteType.methods with
  | error exception =>
      rw [remote] at created
      cases created
  | ok remoteResults =>
      cases own : appendCallbackParameters creator.collectLocal localType.methods with
      | error exception =>
          rw [remote, own] at created
          cases created
      | ok localResults =>
          rw [remote, own] at created
          cases created
          constructor
          · intro type
            rw [List.mem_append, List.mem_append, mem_appendCallbackParameters_iff own,
              appendMethodParameters, List.mem_flatMap, or_assoc]
            rfl
          · intro type
            rw [List.mem_append, List.mem_append, mem_appendCallbackParameters_iff remote,
              appendMethodParameters, List.mem_flatMap, or_assoc]
            rfl
          · rfl
          · rfl

/-! ## What is not -/

/-- What is needed of the methods emitted for one interface: the wrapper classes of their
primitive parameters are collected, although nothing adds them as such, and so are all types
of the methods that are not among the collected ones. -/
structure Recur (collected emitted : List GenericMethod) (sent answered : JType → Prop) :
    Prop where
  wrappers : ∀ method ∈ emitted, ∀ name, .primitive name ∈ method.valueTypes →
    sent (.reference (boxedSourceName name))
  arguments : ∀ method ∈ emitted, method ∉ collected → ∀ type ∈ method.valueTypes,
    (∀ name, type ≠ .primitive name) → sent type
  results : ∀ method ∈ emitted, method ∉ collected → ∀ type ∈ method.callbackTypes,
    answered type

/-- The other types are collected from the methods themselves. -/
theorem recur_iff {collected peers : List GenericMethod} {messages answers : List String}
    {sentRoots answeredRoots : List JType}
    (sent_iff : ∀ type, type ∈ sentRoots ↔ Collected collected peers messages type)
    (answered_iff : ∀ type, type ∈ answeredRoots ↔ Collected peers collected answers type)
    (emitted : List GenericMethod) :
    Recur collected emitted (Collected collected peers messages)
        (Collected peers collected answers) ↔
      (∀ method ∈ emitted, ∀ type ∈ method.valueTypes, type.runtimeType ∈ sentRoots) ∧
      (∀ method ∈ emitted, ∀ type ∈ method.callbackTypes, type ∈ answeredRoots) := by
  simp only [sent_iff, answered_iff]
  have sends : ∀ method ∈ collected, ∀ type ∈ method.valueTypes,
      Collected collected peers messages type :=
    fun method isCollected _ present => Or.inl ⟨method, isCollected, present⟩
  have answered : ∀ method ∈ collected, ∀ type ∈ method.callbackTypes,
      Collected peers collected answers type :=
    fun method isCollected _ present => Or.inr (Or.inl ⟨method, isCollected, present⟩)
  constructor
  · intro recur
    constructor
    · intro method isEmitted type present
      by_cases isCollected : method ∈ collected
      · cases type with
        | primitive name => exact recur.wrappers method isEmitted name present
        | reference name => exact sends method isCollected _ present
        | array component => exact sends method isCollected _ present
      · cases type with
        | primitive name => exact recur.wrappers method isEmitted name present
        | reference name => exact recur.arguments method isEmitted isCollected _ present nofun
        | array component => exact recur.arguments method isEmitted isCollected _ present nofun
    · intro method isEmitted type present
      by_cases isCollected : method ∈ collected
      · exact answered method isCollected type present
      · exact recur.results method isEmitted isCollected type present
  · rintro ⟨arguments, results⟩
    constructor
    · intro method isEmitted name present
      exact arguments method isEmitted _ present
    · intro method isEmitted _ type present notPrimitive
      have covered := arguments method isEmitted type present
      cases type with
      | primitive name => exact absurd rfl (notPrimitive name)
      | reference name => exact covered
      | array component => exact covered
    · intro method isEmitted _ type present
      exact results method isEmitted type present

/-- The types of the generated calls recur in both directions. -/
structure Creator.TypesRecur (creator : Creator) (remoteType localType : JClassType) :
    Prop where
  proxies : Recur (remoteMethods creator.collectRemote remoteType.methods)
    (remoteMethods creator.emitRemote remoteType.inheritableMethods)
    (creator.Sends remoteType localType) (creator.Receives remoteType localType)
  branches : Recur (remoteMethods creator.collectLocal localType.methods)
    (remoteMethods creator.emitLocal localType.inheritableMethods)
    (creator.Receives remoteType localType) (creator.Sends remoteType localType)

theorem Creator.Creates.covers_iff {creator : Creator} {remoteType localType : JClassType}
    {generated : Generated} (creates : creator.Creates remoteType localType generated) :
    generated.Covers ↔ creator.TypesRecur remoteType localType := by
  have proxies_iff := recur_iff creates.mem_clientSerializer_iff creates.mem_serverSerializer_iff
    (remoteMethods creator.emitRemote remoteType.inheritableMethods)
  have branches_iff := recur_iff creates.mem_serverSerializer_iff creates.mem_clientSerializer_iff
    (remoteMethods creator.emitLocal localType.inheritableMethods)
  rw [← creates.proxies_eq] at proxies_iff
  rw [← creates.branches_eq] at branches_iff
  constructor
  · intro covers
    constructor
    · rw [← creates.proxies_eq]
      exact proxies_iff.mpr ⟨covers.sent_arguments, covers.received_results⟩
    · rw [← creates.branches_eq]
      exact branches_iff.mpr ⟨covers.received_arguments, covers.sent_results⟩
  · rintro ⟨proxies, branches⟩
    rw [← creates.proxies_eq] at proxies
    rw [← creates.branches_eq] at branches
    rcases proxies_iff.mp proxies with ⟨sentArguments, receivedResults⟩
    rcases branches_iff.mp branches with ⟨receivedArguments, sentResults⟩
    exact ⟨sentArguments, receivedResults, receivedArguments, sentResults⟩

/-- Every type of the generated calls is registered for the direction it is sent in if and
only if the types of inherited methods, and the wrapper classes of primitive parameters,
are also those of declared methods. -/
theorem types_registered_iff (remoteType localType : JClassType) (generated : Generated) :
    (serverCreator.create remoteType localType = .ok generated →
      (generated.Covers ↔ serverCreator.TypesRecur remoteType localType)) ∧
    (remoteEndpointCreator.create remoteType localType = .ok generated →
      (generated.Covers ↔ remoteEndpointCreator.TypesRecur remoteType localType)) :=
  ⟨fun created => (Creator.creates created).covers_iff,
    fun created => (Creator.creates created).covers_iff⟩

/-! ## A worker, a chat and a game -/

/-- A method without a callback. -/
def plainMethod (enclosingType name : String) (parameters : List JType) : GenericMethod where
  name := name
  enclosingType := enclosingType
  parameters := parameters
  typeArgs := none

/-- `void split(String pattern, String input, Callback<String[], Throwable> callback)` -/
def workerSplit : GenericMethod where
  name := "split"
  enclosingType := "simpleworker.common.client.MyWorker"
  parameters :=
    [.reference "java.lang.String", .reference "java.lang.String",
      .reference "com.google.gwt.core.client.Callback"]
  typeArgs := some (.array (.reference "java.lang.String"), .reference "java.lang.Throwable")

/-- `MyWorker` of the sample. -/
def myWorkerType : JClassType where
  qualifiedSourceName := "simpleworker.common.client.MyWorker"
  methods := [plainMethod "simpleworker.common.client.MyWorker" "ping" [], workerSplit]
  inheritableMethods :=
    [plainMethod "com.colinalworth.gwt.worker.client.Endpoint" "getRemote" [],
      plainMethod "simpleworker.common.client.MyWorker" "ping" [],
      plainMethod "com.colinalworth.gwt.worker.client.Endpoint" "setRemote"
        [.reference "simpleworker.common.client.MyHost"],
      workerSplit]
  methods_enclosed := by decide
  methods_inheritable := by decide

/-- `MyHost` of the sample. -/
def myHostType : JClassType where
  qualifiedSourceName := "simpleworker.common.client.MyHost"
  methods := [plainMethod "simpleworker.common.client.MyHost" "pong" []]
  inheritableMethods :=
    [plainMethod "com.colinalworth.gwt.worker.client.Endpoint" "getRemote" [],
      plainMethod "simpleworker.common.client.MyHost" "pong" [],
      plainMethod "com.colinalworth.gwt.worker.client.Endpoint" "setRemote"
        [.reference "simpleworker.common.client.MyWorker"]]
  methods_enclosed := by decide
  methods_inheritable := by decide

/-- `void login(String username, Callback<Void, String> callback)` -/
def chatLogin : GenericMethod where
  name := "login"
  enclosingType := "samples.easychatroom2.shared.ChatServer"
  parameters :=
    [.reference "java.lang.String", .reference "com.google.gwt.core.client.Callback"]
  typeArgs := some (.reference "java.lang.Void", .reference "java.lang.String")

/-- `ChatServer` of the sample, with `close` for all that it has from `Server`. -/
def chatServerType : JClassType where
  qualifiedSourceName := "samples.easychatroom2.shared.ChatServer"
  methods := [chatLogin]
  inheritableMethods :=
    [plainMethod "com.colinalworth.gwt.websockets.shared.Server" "close" [], chatLogin]
  methods_enclosed := by decide
  methods_inheritable := by decide

/-- `ChatClient` of the sample, as far as `join`. -/
def chatClientType : JClassType where
  qualifiedSourceName := "samples.easychatroom2.shared.ChatClient"
  methods :=
    [plainMethod "samples.easychatroom2.shared.ChatClient" "join" [.reference "java.lang.String"]]
  inheritableMethods :=
    [plainMethod "samples.easychatroom2.shared.ChatClient" "join" [.reference "java.lang.String"]]
  methods_enclosed := by decide
  methods_inheritable := by decide

/-- The samples inherit no remote method and have no primitive parameter. -/
theorem types_registered_samples :
    (∃ generated, serverCreator.create chatServerType chatClientType = .ok generated ∧
      generated.Covers ∧ serverCreator.TypesRecur chatServerType chatClientType) ∧
    (∃ generated, remoteEndpointCreator.create myWorkerType myHostType = .ok generated ∧
      generated.Covers ∧ remoteEndpointCreator.TypesRecur myWorkerType myHostType) := by
  constructor
  · refine ⟨_, rfl, ?_⟩
    rw [← (types_registered_iff _ _ _).1 rfl, and_self]
    constructor <;> decide
  · refine ⟨_, rfl, ?_⟩
    rw [← (types_registered_iff _ _ _).2 rfl, and_self]
    constructor <;> decide

/-- `void sit(Player player, Callback<Seat, String> callback)` of an interface `Table` -/
def tableSit : GenericMethod where
  name := "sit"
  enclosingType := "Table"
  parameters := [.reference "Player", .reference "com.google.gwt.core.client.Callback"]
  typeArgs := some (.reference "Seat", .reference "java.lang.String")

/-- `interface Game extends Table`, which declares `void roll(int sides)`. -/
def gameType : JClassType where
  qualifiedSourceName := "Game"
  methods := [plainMethod "Game" "roll" [.primitive "int"]]
  inheritableMethods := [plainMethod "Game" "roll" [.primitive "int"], tableSit]
  methods_enclosed := by decide
  methods_inheritable := by decide

/-- An interface without methods. -/
def playerType : JClassType where
  qualifiedSourceName := "GamePlayer"
  methods := []
  inheritableMethods := []
  methods_enclosed := by decide
  methods_inheritable := by decide

/-- Calls of `sit` and `roll` are generated for both kinds of proxies, but neither knows
players, or numbers as objects. -/
theorem game_types_missing :
    (∃ generated, serverCreator.create gameType playerType = .ok generated ∧
      tableSit ∈ generated.proxies ∧ .reference "Player" ∉ generated.clientSerializer ∧
      .reference "Seat" ∉ generated.serverSerializer ∧
      plainMethod "Game" "roll" [.primitive "int"] ∈ generated.proxies ∧
      .reference "java.lang.Integer" ∉ generated.clientSerializer ∧ ¬ generated.Covers) ∧
    (∃ generated, remoteEndpointCreator.create gameType playerType = .ok generated ∧
      tableSit ∈ generated.proxies ∧ .reference "Player" ∉ generated.clientSerializer ∧
      .reference "Seat" ∉ generated.serverSerializer ∧
      plainMethod "Game" "roll" [.primitive "int"] ∈ generated.proxies ∧
      .reference "java.lang.Integer" ∉ generated.clientSerializer ∧ ¬ generated.Covers) := by
  constructor
  · refine ⟨_, rfl, by decide, by decide, by decide, by decide, by decide, ?_⟩
    intro covers
    exact absurd (covers.received_results tableSit (by decide) (.reference "Seat") (by decide))
      (by decide)
  · refine ⟨_, rfl, by decide, by decide, by decide, by decide, by decide, ?_⟩
    intro covers
    exact absurd (covers.received_results tableSit (by decide) (.reference "Seat") (by decide))
      (by decide)

end WebbitGwt.Rebind
