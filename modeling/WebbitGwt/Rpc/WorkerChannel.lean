import WebbitGwt.Graph.Unfolding
import WebbitGwt.Rpc.WirePair
import WebbitGwt.Rpc.WorkerMessages

/-!
# Two workers and the buffers between them

What a method is handed, or a callback, is observed by following references from it.
A message that fits into a buffer arrives with objects that cannot be told from those
that were sent, so all that is conserved when messages are exchanged is conserved when
`ArrayBuffer`s are.
-/

namespace WebbitGwt.Rpc.WorkerChannel

open WebbitGwt.Java
open WebbitGwt.Nio
open WebbitGwt.Graph
open WebbitGwt.Stream
open WebbitGwt.Rpc.WorkerMessages
open WebbitGwt.Rpc.WirePair

variable {C : Type} {serializer : EndpointSerializer C}

/-- Objects in the memory of an end. -/
structure Memory (serializer : EndpointSerializer C) where
  size : Nat
  heap : Heap serializer.toSerializer (Fin size)

/-- A reference in a memory, which may be null. -/
abbrev Memory.Ref (memory : Memory serializer) : Type :=
  Option (Fin memory.size)

/-- An object without its references. -/
abbrev Label (C : Type) := Node C String Unit

/-- What can be told of a reference: null, or what is at the ends of the paths from it. -/
abbrev Observation (C : Type) := Option (List Nat → Option (Option (Label C)))

/-- What can be told of a reference in a memory. -/
def observe (memory : Memory serializer) : memory.Ref → Observation C :=
  Option.map (unfolding memory.heap.content fun object =>
    some ((memory.heap.node object).map fun _ => ()))

/-- What can be told of a reference that has been read. -/
def observeRead (serializer : EndpointSerializer C) (reader : ObjectReader C String) :
    Option (Reference C) → Observation C :=
  Option.map (unfolding
    (fun reference => ((reader.node serializer.toSerializer reference).map Node.content).getD [])
    fun reference => (reader.node serializer.toSerializer reference).map (Node.map fun _ => ()))

/-- A copy cannot be told from what was copied. -/
theorem observeRead_rename {memory : Memory serializer} {roots : List memory.Ref}
    {reader : ObjectReader C String} {results : List (Field (Value String) (Reference C))}
    {rename : Fin memory.size → Reference C}
    (isCopy : IsCopy memory.heap roots reader results rename) {root : memory.Ref}
    (isRoot : root ∈ roots) :
    observeRead serializer reader (root.map rename) = observe memory root := by
  cases root with
  | none => rfl
  | some object =>
      apply congrArg some
      funext path
      apply unfolding_rename _ _ (Reachable.root isRoot)
      · intro node isReachable
        rw [isCopy.node_eq node isReachable]
        exact Node.content_map rename (memory.heap.node node)
      · intro node isReachable
        rw [isCopy.node_eq node isReachable]
        exact congrArg some (Node.map_map _ _ _)

/-- The part of `__sendMessage` and `__sendCallback` that may throw. -/
def serialize {R : Type} [DecidableEq R] (nativeOrder : ByteOrder)
    (serializer : EndpointSerializer C) (heap : R → Node C String R) (depth : Nat)
    (message : RemoteMessage (Option R)) : Except String (WorkerData String) :=
  (getWorkerData nativeOrder serializer heap depth message).mapError
    fun _ => "SerializationException"

/-- Messages that are sent as buffers with strings. -/
def codec (nativeOrder : ByteOrder) (serializer : EndpointSerializer C) (depth : Nat) :
    Codec (Memory serializer) Memory.Ref (WorkerData String) (Observation C) where
  serialize memory := serialize nativeOrder serializer memory.heap.node depth
  receive data :=
    match ofWorkerData nativeOrder serializer depth data with
    | .ok (some message, reader) => some (message.map (observeRead serializer reader))
    | _ => none
  observe := observe
  Fits memory message := by
    classical
    exact 3 + width memory.heap message ≤ 2 ^ 28 ∧ memory.size < depth
  receive_serialize := by
    classical
    rintro memory message ⟨inRange, deep⟩
    rw [← Fintype.card_fin memory.size] at deep
    obtain ⟨data, last, rename, sends, receives, isCopy⟩ :=
      message_round_trip nativeOrder serializer memory.heap message inRange depth deep
    refine ⟨data, by rw [serialize, sends]; rfl, ?_⟩
    simp only [receives, Message.map_map, Message.received_map]
    apply congrArg some
    apply Message.map_congr
    intro value isValue
    exact observeRead_rename isCopy (Message.values_received message ▸ isValue)

/-! ## One call and its reply -/

section Call

variable {R T : Type} [DecidableEq R] [DecidableEq T] [Fintype R] [Fintype T]
  {nativeOrder : ByteOrder} {depth : Nat}

/-- What is sent is handed on with its objects copied. -/
theorem exists_serialized {heap : Heap serializer.toSerializer R}
    {message : RemoteMessage (Option R)} [DecidablePred (Reachable heap.content message.values)]
    (inRange : 3 + width heap message ≤ 2 ^ 28) (deep : Fintype.card R < depth) :
    ∃ data last rename,
      serialize nativeOrder serializer heap.node depth message = .ok data ∧
      ofWorkerData nativeOrder serializer depth data =
        .ok (some (message.received.map (Option.map rename)), last) ∧
      IsCopy heap message.values last
        (message.values.map fun value => .reference (value.map rename)) rename := by
  obtain ⟨data, last, rename, sends, receives, isCopy⟩ :=
    message_round_trip nativeOrder serializer heap message inRange depth deep
  exact ⟨data, last, rename, by rw [serialize, sends]; rfl, receives, isCopy⟩

/-- A call travels to the peer and its reply back.  The method gets copies of the
parameters and a reply callback behind them; the callback of the call gets a copy of the
response, and is no longer registered. -/
theorem remote_call_round_trip {Cb PeerCb : Type} (nativeOrder : ByteOrder)
    (serializer : EndpointSerializer C) (depth : Nat) (heap : Heap serializer.toSerializer R)
    (peerHeap : Heap serializer.toSerializer T) (table : CallbackTable Cb)
    (peerTable : CallbackTable PeerCb) (method : String) (callback : Cb)
    (params : List (Option R)) (success : Bool) (response : Option T)
    [DecidablePred (Reachable heap.content params)]
    [DecidablePred (Reachable peerHeap.content [response])]
    (hasId : table.nextCallbackId ≠ 0) (deep : Fintype.card R < depth)
    (peerDeep : Fintype.card T < depth)
    (callInRange : 3 + (4 + (params.length +
      ∑ object with Reachable heap.content params object, heap.width object)) ≤ 2 ^ 28)
    (replyInRange : 3 + (3 + (1 +
      ∑ object with Reachable peerHeap.content [response] object, peerHeap.width object)) ≤
        2 ^ 28) :
    ∃ request call callReader copy answer reply replyReader copyBack,
      WorkerEndpoint.sendMessage (serialize nativeOrder serializer heap.node depth) table method
          (some callback) (some params) = ((table.register callback).2, { wire := some request }) ∧
      ofWorkerData nativeOrder serializer depth request = .ok (some call, callReader) ∧
      WorkerEndpoint.onMessage peerTable call =
        (peerTable, .invoke method
          (params.map (fun param => .value (param.map copy)) ++
            [.reply { callbackId := table.nextCallbackId }])) ∧
      IsCopy heap params callReader (params.map fun param => .reference (param.map copy)) copy ∧
      WorkerEndpoint.useReply (serialize nativeOrder serializer peerHeap.node depth)
          { callbackId := table.nextCallbackId } success response =
        ({ callbackId := table.nextCallbackId, fired := true }, { wire := some answer }) ∧
      ofWorkerData nativeOrder serializer depth answer = .ok (some reply, replyReader) ∧
      WorkerEndpoint.onMessage (table.register callback).2 reply =
        ((table.register callback).2.remove table.nextCallbackId,
          .fire callback success (response.map copyBack)) ∧
      IsCopy peerHeap [response] replyReader [.reference (response.map copyBack)] copyBack := by
  let request : RemoteMessage (Option R) :=
    .invocation
      { method := method, parameters := some params, callbackId := table.nextCallbackId }
  let answer : RemoteMessage (Option T) :=
    .callback
      { callbackId := table.nextCallbackId, response := response, isSuccess := success }
  let _ : DecidablePred (Reachable heap.content request.values) :=
    ‹DecidablePred (Reachable heap.content params)›
  let _ : DecidablePred (Reachable peerHeap.content answer.values) :=
    ‹DecidablePred (Reachable peerHeap.content [response])›
  have requestInRange : 3 + width heap request ≤ 2 ^ 28 := callInRange
  have answerInRange : 3 + width peerHeap answer ≤ 2 ^ 28 := replyInRange
  obtain ⟨data, callReader, copy, sendsCall, receivesCall, copies⟩ :=
    exists_serialized requestInRange deep
  obtain ⟨answerData, replyReader, copyBack, sendsReply, receivesReply, copiesBack⟩ :=
    exists_serialized answerInRange peerDeep
  have posts : WorkerEndpoint.postMessage (serialize nativeOrder serializer heap.node depth)
      request = { wire := some data } := by
    rw [WorkerEndpoint.postMessage, sendsCall]
  have answers : WorkerEndpoint.postMessage (serialize nativeOrder serializer peerHeap.node depth)
      answer = { wire := some answerData } := by
    rw [WorkerEndpoint.postMessage, sendsReply]
  have arguments : (params.map (Option.map copy)).map Argument.value =
      params.map fun param => .value (param.map copy) := by
    rw [List.map_map]
    rfl
  have entry : (table.register callback).2.callbacks table.nextCallbackId = some callback := by
    rw [CallbackTable.register_snd_callbacks, Function.update_self]
  refine ⟨data, _, callReader, copy, answerData, _, replyReader, copyBack,
    congrArg (Prod.mk _) posts, receivesCall, ?_, copies, congrArg (Prod.mk _) answers,
    receivesReply, ?_, copiesBack⟩
  · simp only [request, Message.received, Message.map, Option.getD_some, Option.map_some,
      WorkerEndpoint.onMessage, CallbackTable.receiveMessage, Invocation.arguments, arguments,
      if_pos hasId]
  · exact WorkerEndpoint.onMessage_callback_of_some entry

end Call

/-- A class with a number and a reference, and the wrappers. -/
def chainSerializer : EndpointSerializer (Option WrapperClass) where
  getSerializationSignature
    | none => some "Chain"
    | some .remoteInvocation => some "RemoteInvocation"
    | some .remoteCallbackInvocation => some "RemoteCallbackInvocation"
  typeOf signature :=
    if signature = "Chain" then some none
    else if signature = "RemoteInvocation" then some (some .remoteInvocation)
    else if signature = "RemoteCallbackInvocation" then some (some .remoteCallbackInvocation)
    else none
  shape
    | none => .fields [.value .int, .object]
    | some _ => .fields []
  typeOf_signature := by
    rintro (_ | _ | _) signature ⟨⟩ <;> decide
  constants_lt := by
    rintro (_ | _ | _) constants ⟨⟩
  wrapper := some
  signature
    | .remoteInvocation => "RemoteInvocation"
    | .remoteCallbackInvocation => "RemoteCallbackInvocation"
  signature_injective := by
    rintro (_ | _) (_ | _) same <;> first | rfl | exact absurd same (by decide)
  hasSignature := by
    rintro (_ | _) <;> rfl
  hasNoFields := by
    rintro (_ | _) <;> rfl

/-- Two links of a chain that is closed. -/
def chainHeap : Heap chainSerializer.toSerializer (Fin 2) where
  node
    | 0 => .object none [.value (.int 7), .reference (some 1)]
    | 1 => .object none [.value (.int 8), .reference (some 0)]
  conforms := by
    intro object
    fin_cases object <;> exact .object rfl rfl
  constant_unique := by
    intro first second
    fin_cases first <;> fin_cases second <;> simp

/-- Whatever can be reached of the chain takes at most four words. -/
theorem width_chainHeap_le (roots : List (Option (Fin 2)))
    [DecidablePred (Reachable chainHeap.content roots)] :
    ∑ object with Reachable chainHeap.content roots object, chainHeap.width object ≤ 4 :=
  Finset.sum_le_sum_of_subset (Finset.filter_subset _ _)

open scoped Classical in
/-- The parameters are both links, one of them twice, and null; the reply is a link. -/
theorem remote_call_round_trip_chain :
    ∃ request call callReader copy answer reply replyReader copyBack,
      WorkerEndpoint.sendMessage (serialize .littleEndian chainSerializer chainHeap.node 3)
          (.new : CallbackTable Nat) "connect" (some 0)
          (some [some 1, none, some 0, some 1]) =
        (((.new : CallbackTable Nat).register 0).2, { wire := some request }) ∧
      ofWorkerData .littleEndian chainSerializer 3 request = .ok (some call, callReader) ∧
      WorkerEndpoint.onMessage (.new : CallbackTable Nat) call =
        (.new, .invoke "connect"
          ([some 1, none, some 0, some 1].map (fun param => .value (param.map copy)) ++
            [.reply { callbackId := 1 }])) ∧
      IsCopy chainHeap [some 1, none, some 0, some 1] callReader
        ([some 1, none, some 0, some 1].map fun param => .reference (param.map copy)) copy ∧
      WorkerEndpoint.useReply (serialize .littleEndian chainSerializer chainHeap.node 3)
          { callbackId := 1 } true (some 0) =
        ({ callbackId := 1, fired := true }, { wire := some answer }) ∧
      ofWorkerData .littleEndian chainSerializer 3 answer = .ok (some reply, replyReader) ∧
      WorkerEndpoint.onMessage ((.new : CallbackTable Nat).register 0).2 reply =
        (((.new : CallbackTable Nat).register 0).2.remove 1,
          .fire 0 true (Option.map copyBack (some 0))) ∧
      IsCopy chainHeap [some 0] replyReader [.reference (Option.map copyBack (some 0))]
        copyBack := by
  apply remote_call_round_trip .littleEndian chainSerializer 3 chainHeap chainHeap .new .new
    "connect" 0 [some 1, none, some 0, some 1] true (some 0) (by decide) (by decide) (by decide)
  · have words := width_chainHeap_le [some 1, none, some 0, some 1]
    have parameters : [some (1 : Fin 2), none, some 0, some 1].length = 4 := rfl
    omega
  · have words := width_chainHeap_le [some 0]
    omega

/-! ## Whole runs -/

/-- What is conserved when messages are exchanged is conserved when buffers are, in every
run of calls and replies that fit into them. -/
theorem worker_channel_conservation (nativeOrder : ByteOrder) (serializer : EndpointSerializer C)
    (depth : Nat) {net : Net (WorkerData String) (Observation C)}
    (reachable : (machine (codec nativeOrder serializer depth)).ReachableBy
      (Fits (codec nativeOrder serializer depth)) net)
    (calls : ∀ side, (net side).calls < 2 ^ 31) :
    Conservation (codec nativeOrder serializer depth) net :=
  conservation_of_reachable reachable calls

/-- The chain in the memory of an end. -/
def chainMemory : Memory chainSerializer where
  size := 2
  heap := chainHeap

/-- The page asks about the chain, and the worker answers with a link of its own. -/
def asksAboutChain : List (Action (Memory chainSerializer) Memory.Ref) :=
  [.call .page chainMemory "connect" true (some [some (0 : Fin 2)]), .deliver .worker 0,
    .reply .worker 0 chainMemory true (some (1 : Fin 2)), .deliver .page 0]

/-- The callback has fired with what cannot be told from that link, and nothing is left. -/
theorem worker_channel_conservation_chain :
    ∃ net : Net (WorkerData String) (Observation (Option WrapperClass)),
      (machine (codec .littleEndian chainSerializer 3)).runFrom
        (machine (codec .littleEndian chainSerializer 3)).init asksAboutChain = some net ∧
      (net .page).fired = [⟨0, true, observe chainMemory (some (1 : Fin 2))⟩] ∧
      Conservation (codec .littleEndian chainSerializer 3) net ∧
      ∀ side, (∀ callbackId, (net side).table.callbacks callbackId = none) ∧
        ((net side).fired.map Fired.call).Perm (List.range (net side).calls) := by
  classical
  have callFits : (codec .littleEndian chainSerializer 3).Fits chainMemory (.invocation
      { method := "connect", parameters := some [some (0 : Fin 2)], callbackId := 1 }) := by
    refine ⟨?_, by decide⟩
    have words := width_chainHeap_le [some 0]
    change 3 + (1 + 3 + (1 + ∑ object with Reachable chainHeap.content [some 0] object,
      chainHeap.width object)) ≤ 2 ^ 28
    omega
  have replyFits : (codec .littleEndian chainSerializer 3).Fits chainMemory (.callback
      { callbackId := 1, response := some (1 : Fin 2), isSuccess := true }) := by
    refine ⟨?_, by decide⟩
    have words := width_chainHeap_le [some 1]
    change 3 + (3 + (1 + ∑ object with Reachable chainHeap.content [some 1] object,
      chainHeap.width object)) ≤ 2 ^ 28
    omega
  rcases reachable_answered (codec .littleEndian chainSerializer 3) callFits replyFits with
    ⟨net, run, reachable, page, worker⟩
  have conservation := worker_channel_conservation .littleEndian chainSerializer 3 reachable
    (by rintro (_ | _) <;> simp [page, worker, End.init])
  refine ⟨net, run, by rw [page]; rfl, conservation, conservation.at_rest ?_⟩
  rintro (_ | _) <;> simp [page, worker, End.init]

end WebbitGwt.Rpc.WorkerChannel
