import WebbitGwt.Rebind.SerializableTypes

/-!
# Both ends of a worker channel

A page and its worker are compiled separately.  On each side `RemoteEndpointCreator` runs
once, for the endpoint of the other side, and the types it registers as sent have to be
those that its other run registers as received.  The loops over the methods of an
interface are given a different super class in the two runs; for interfaces that extend
`Endpoint` the difference has no effect, since neither super class is one of them.
-/

namespace WebbitGwt.Rebind

open WebbitGwt.Java

/-- The interfaces that `isRemoteMethod` is asked about here.  They extend nothing. -/
def rootInterfaces : List String :=
  ["com.colinalworth.gwt.worker.client.Endpoint", "com.colinalworth.gwt.websockets.shared.Server"]

/-- An interface that extends `Endpoint`, with all the interfaces above it, and the one it
names as `REMOTE`. -/
structure EndpointType extends JClassType where
  superInterfaces : List String
  remote : String
  extends_endpoint : "com.colinalworth.gwt.worker.client.Endpoint" ∈ superInterfaces
  roots_extend_nothing : qualifiedSourceName ∈ rootInterfaces → superInterfaces = []

/-- Two endpoints that name each other as remote. -/
structure EndpointPair where
  first : EndpointType
  second : EndpointType
  first_remote : first.remote = second.qualifiedSourceName
  second_remote : second.remote = first.qualifiedSourceName

/-- The two runs have the same outcome: a raw `Callback` stops both, and otherwise each
registers as sent what the other registers as received. -/
inductive Mirrored : Except Throwable Generated → Except Throwable Generated → Prop
  | refused : Mirrored (.error .nullPointerException) (.error .nullPointerException)
  | generated {near far : Generated}
      (sent : ∀ type, type ∈ near.clientSerializer ↔ type ∈ far.serverSerializer)
      (received : ∀ type, type ∈ near.serverSerializer ↔ type ∈ far.clientSerializer) :
      Mirrored (.ok near) (.ok far)

/-! ## Filters that keep the same methods -/

/-- The loops keep the same methods with either super class. -/
def SameRemote (superClass otherClass : String) (methods : List GenericMethod) : Prop :=
  ∀ method ∈ methods,
    isRemoteFor superClass method.toJMethod = isRemoteFor otherClass method.toJMethod

section

variable {superClass otherClass : String} {methods : List GenericMethod}

theorem appendMethodParameters_congr (same : SameRemote superClass otherClass methods) :
    appendMethodParameters superClass methods = appendMethodParameters otherClass methods := by
  unfold appendMethodParameters remoteMethods
  rw [List.filter_congr same]

theorem appendCallbackParameters_congr (same : SameRemote superClass otherClass methods) :
    appendCallbackParameters superClass methods =
      appendCallbackParameters otherClass methods := by
  induction methods with
  | nil => rfl
  | cons method rest ih =>
      have atMethod := same method List.mem_cons_self
      have atRest : SameRemote superClass otherClass rest :=
        fun later isLater => same later (List.mem_cons_of_mem method isLater)
      unfold appendCallbackParameters
      rw [atMethod, ih atRest]

/-- Only a raw `Callback` stops the loop. -/
theorem appendCallbackParameters_error {exception : Throwable}
    (stopped : appendCallbackParameters superClass methods = .error exception) :
    exception = .nullPointerException := by
  induction methods with
  | nil => cases stopped
  | cons method rest ih =>
      unfold appendCallbackParameters at stopped
      by_cases remote : isRemoteFor superClass method.toJMethod = true
      · rw [if_pos remote] at stopped
        cases first : method.callbackRoots with
        | error thrown =>
            rw [first] at stopped
            cases stopped
            exact GenericMethod.callbackRoots_error first
        | ok own =>
            cases later : appendCallbackParameters superClass rest with
            | error thrown =>
                rw [first, later] at stopped
                cases stopped
                exact ih later
            | ok others =>
                rw [first, later] at stopped
                cases stopped
      · rw [if_neg remote] at stopped
        exact ih stopped

end

namespace EndpointType

/-- An endpoint extends something, so it is none of the root interfaces. -/
theorem not_root (endpoint : EndpointType) :
    endpoint.qualifiedSourceName ∉ rootInterfaces := by
  intro isRoot
  have extended := endpoint.extends_endpoint
  rw [endpoint.roots_extend_nothing isRoot] at extended
  cases extended

/-- Each declared method of an endpoint is remote, for either super class. -/
theorem isRemoteFor_of_declared (endpoint : EndpointType) {superClass : String}
    (isRoot : superClass ∈ rootInterfaces) {method : GenericMethod}
    (declared : method ∈ endpoint.methods) : isRemoteFor superClass method.toJMethod = true := by
  unfold isRemoteFor
  rw [endpoint.methods_enclosed method declared, bne_iff_ne]
  rintro rfl
  exact endpoint.not_root isRoot

theorem sameRemote (endpoint : EndpointType) {superClass otherClass : String}
    (isRoot : superClass ∈ rootInterfaces) (otherIsRoot : otherClass ∈ rootInterfaces) :
    SameRemote superClass otherClass endpoint.methods := by
  intro method declared
  rw [endpoint.isRemoteFor_of_declared isRoot declared,
    endpoint.isRemoteFor_of_declared otherIsRoot declared]

end EndpointType

/-! ## Two runs with the roles exchanged -/

/-- A generator that adds the same messages in both directions mirrors itself on two
interfaces whose methods its super classes do not tell apart. -/
theorem Creator.create_mirrored {creator : Creator} {near far : JClassType}
    (messages : creator.sentMessages = creator.receivedMessages)
    (nearSame : SameRemote creator.collectRemote creator.collectLocal near.methods)
    (farSame : SameRemote creator.collectRemote creator.collectLocal far.methods) :
    Mirrored (creator.create near far) (creator.create far near) := by
  unfold create
  rw [appendMethodParameters_congr nearSame, appendMethodParameters_congr farSame,
    appendCallbackParameters_congr nearSame, appendCallbackParameters_congr farSame, messages]
  cases nearResults : appendCallbackParameters creator.collectLocal near.methods with
  | error exception =>
      cases appendCallbackParameters_error nearResults
      cases farResults : appendCallbackParameters creator.collectLocal far.methods with
      | error exception =>
          cases appendCallbackParameters_error farResults
          exact Mirrored.refused
      | ok farRoots => exact Mirrored.refused
  | ok nearRoots =>
      cases farResults : appendCallbackParameters creator.collectLocal far.methods with
      | error exception =>
          cases appendCallbackParameters_error farResults
          exact Mirrored.refused
      | ok farRoots => exact Mirrored.generated (fun type => Iff.rfl) (fun type => Iff.rfl)

/-- The types sent from one end of a worker channel are the types received at the other,
whatever methods the two endpoints declare. -/
theorem worker_types_mirrored (pair : EndpointPair) :
    Mirrored
      (remoteEndpointCreator.create pair.first.toJClassType pair.second.toJClassType)
      (remoteEndpointCreator.create pair.second.toJClassType pair.first.toJClassType) := by
  have isServer : remoteEndpointCreator.collectRemote ∈ rootInterfaces :=
    List.mem_cons_of_mem _ List.mem_cons_self
  have isEndpoint : remoteEndpointCreator.collectLocal ∈ rootInterfaces := List.mem_cons_self
  apply Creator.create_mirrored rfl
  · exact pair.first.sameRemote isServer isEndpoint
  · exact pair.second.sameRemote isServer isEndpoint

/-- `MyWorker` and `MyHost` of the sample. -/
def samplePair : EndpointPair where
  first :=
    { myWorkerType with
      superInterfaces := ["com.colinalworth.gwt.worker.client.Endpoint"]
      remote := "simpleworker.common.client.MyHost"
      extends_endpoint := List.mem_cons_self
      roots_extend_nothing := by decide }
  second :=
    { myHostType with
      superInterfaces := ["com.colinalworth.gwt.worker.client.Endpoint"]
      remote := "simpleworker.common.client.MyWorker"
      extends_endpoint := List.mem_cons_self
      roots_extend_nothing := by decide }
  first_remote := rfl
  second_remote := rfl

example :
    ((remoteEndpointCreator.create samplePair.first.toJClassType
      samplePair.second.toJClassType).toOption.map (·.serverSerializer)) =
    some [.array (.reference "java.lang.String"), .reference "java.lang.Throwable",
      .reference "com.colinalworth.gwt.worker.client.impl.RemoteInvocation",
      .reference "com.colinalworth.gwt.worker.client.impl.RemoteCallbackInvocation"] := by
  decide

end WebbitGwt.Rebind
