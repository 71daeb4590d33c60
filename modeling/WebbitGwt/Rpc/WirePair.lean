import WebbitGwt.Rpc.WorkerPair

/-!
# Two worker endpoints and the data between them

The channel carries serialized data, not messages: a call or a reply is about objects
in the memory of its end, and the other end sees what it makes of the data.  A codec
says how the two are related.  Then two endpoints that exchange data behave like two
that exchange messages.
-/

namespace WebbitGwt.Rpc.WirePair

open WebbitGwt.Java
open WebbitGwt.Transition
open WebbitGwt.Rpc.WorkerPair (Side)

/-- How messages travel: what a memory serializes them to, what is received for some
data, and what is to be seen of a reference.  A message that fits arrives as it was
sent. -/
structure Codec (M : Type) (Ref : M → Type) (W V : Type) where
  serialize : (memory : M) → RemoteMessage (Ref memory) → Except String W
  receive : W → Option (RemoteMessage V)
  observe : (memory : M) → Ref memory → V
  Fits : (memory : M) → RemoteMessage (Ref memory) → Prop
  receive_serialize : ∀ memory message, Fits memory message →
    ∃ data, serialize memory message = .ok data ∧
      receive data = some (message.map (observe memory)).received

variable {M W V : Type} {Ref : M → Type}

/-- One endpoint, the data on its way to it, the reply callbacks its methods were
handed, and what has happened to callbacks there. -/
structure End (W V : Type) where
  table : CallbackTable Nat
  inbox : List (W × Nat)
  held : List Held
  fired : List (Fired V)
  given : List (Nat × (Bool × V))
  calls : Nat

/-- A fresh endpoint. -/
def End.init : End W V where
  table := .new
  inbox := []
  held := []
  fired := []
  given := []
  calls := 0

/-- The two joined endpoints. -/
abbrev Net (W V : Type) := Side → End W V

/-- Every send serializes objects as they are in memory then. -/
inductive Action (M : Type) (Ref : M → Type)
  | call (side : Side) (memory : M) (method : String) (withCallback : Bool)
      (params : Option (List (Ref memory)))
  | deliver (side : Side) (index : Nat)
  | reply (side : Side) (index : Nat) (memory : M) (success : Bool) (response : Ref memory)

/-- Change one end, and post data to the other. -/
def update (net : Net W V) (side : Side) (changed : End W V) (posted : List (W × Nat)) :
    Net W V :=
  Function.update
    (Function.update net side.other
      { net side.other with inbox := posted ++ (net side.other).inbox })
    side changed

section Step

variable (codec : Codec M Ref W V)

/-- `__sendMessage`.  Where serialization fails nothing is posted, and the callback
stays registered. -/
def call (net : Net W V) (side : Side) (memory : M) (method : String) (withCallback : Bool)
    (params : Option (List (Ref memory))) : Net W V :=
  let caller := net side
  let callback := if withCallback then some caller.calls else none
  let (table, transmission) :=
    WorkerEndpoint.sendMessage (codec.serialize memory) caller.table method callback params
  update net side
    { caller with
      table := table
      calls := if withCallback then caller.calls + 1 else caller.calls }
    (transmission.wire.toList.map fun data => (data, caller.calls))

/-- `__onMessage` on data in flight. -/
def deliver (net : Net W V) (side : Side) (index : Nat) : Option (Net W V) :=
  let receiver := net side
  receiver.inbox[index]?.map fun (data, call) =>
    let delivered := { receiver with inbox := receiver.inbox.eraseIdx index }
    match codec.receive data with
    | none => update net side delivered []
    | some message =>
        let (table, received) := WorkerEndpoint.onMessage receiver.table message
        let delivered := { delivered with table := table }
        match received with
        | .invoke _ params =>
            update net side
              { delivered with
                held := (params.filterMap Argument.reply?).map (⟨·, call⟩) ++ receiver.held }
              []
        | .fire callback success response =>
            update net side
              { delivered with fired := ⟨callback, success, response⟩ :: receiver.fired } []
        | .ignored => update net side delivered []

/-- A method uses the reply callback it was given. -/
def reply (net : Net W V) (side : Side) (index : Nat) (memory : M) (success : Bool)
    (response : Ref memory) : Option (Net W V) :=
  let receiver := net side
  receiver.held[index]?.map fun held =>
    let (callback, transmission) :=
      WorkerEndpoint.useReply (codec.serialize memory) held.callback success response
    let used :=
      { receiver with held := receiver.held.set index { held with callback := callback } }
    match transmission.wire with
    | some data =>
        update net side
          { used with
            given := (held.call, (success, codec.observe memory response)) :: receiver.given }
          [(data, held.call)]
    | none => update net side used []

/-- Two endpoints joined by their ports. -/
def machine : Machine (Net W V) (Action M Ref) where
  init := fun _ => .init
  next net
    | .call side memory method withCallback params =>
        some (call codec net side memory method withCallback params)
    | .deliver side index => deliver codec net side index
    | .reply side index memory success response =>
        reply codec net side index memory success response

/-- The message of a call. -/
def callMessage (net : Net W V) (side : Side) (memory : M) (method : String)
    (withCallback : Bool) (params : Option (List (Ref memory))) :
    RemoteMessage (Ref memory) :=
  let callback := if withCallback then some (net side).calls else none
  .invocation
    { method := method
      parameters := params
      callbackId := ((net side).table.registerNullable callback).1 }

/-- What is sent fits. -/
def Fits (net : Net W V) : Action M Ref → Prop
  | .call side memory method withCallback params =>
      codec.Fits memory (callMessage net side memory method withCallback params)
  | .deliver _ _ => True
  | .reply side index memory success response =>
      ∀ held, (net side).held[index]? = some held →
        codec.Fits memory (.callback
          { callbackId := held.callback.callbackId, response := response, isSuccess := success })

end Step

/-! ## What the steps do -/

section Spec

variable {codec : Codec M Ref W V} {net : Net W V} {side : Side} {memory : M} {data : W}

/-- A call whose message can be serialized. -/
theorem call_of_serialized {method : String} {withCallback : Bool}
    {params : Option (List (Ref memory))}
    (serialized : codec.serialize memory
      (callMessage net side memory method withCallback params) = .ok data) :
    call codec net side memory method withCallback params =
      update net side
        { net side with
          table := ((net side).table.registerNullable
            (if withCallback then some (net side).calls else none)).2
          calls := if withCallback then (net side).calls + 1 else (net side).calls }
        [(data, (net side).calls)] := by
  have posts : WorkerEndpoint.postMessage (codec.serialize memory)
      (callMessage net side memory method withCallback params) = { wire := some data } := by
    rw [WorkerEndpoint.postMessage, serialized]
  have sends := congrArg (Prod.mk ((net side).table.registerNullable
    (if withCallback then some (net side).calls else none)).2) posts
  change WorkerEndpoint.sendMessage (codec.serialize memory) (net side).table method
    (if withCallback then some (net side).calls else none) params = _ at sends
  simp only [call, sends]
  rfl

/-- A call with a callback arrives. -/
theorem deliver_invocation {index number : Nat} {invocation : Invocation V}
    (present : (net side).inbox[index]? = some (data, number))
    (received : codec.receive data = some (.invocation invocation))
    (hasId : invocation.callbackId ≠ 0) :
    deliver codec net side index = some (update net side
      { net side with
        inbox := (net side).inbox.eraseIdx index
        held := ⟨{ callbackId := invocation.callbackId }, number⟩ :: (net side).held } []) := by
  simp only [deliver, present, Option.map_some, received, WorkerEndpoint.onMessage,
    CallbackTable.receiveMessage, Invocation.filterMap_reply?_arguments, if_pos hasId]
  rfl

/-- A reply that arrives. -/
theorem deliver_callback {index number target : Nat} {answer : CallbackInvocation V}
    (present : (net side).inbox[index]? = some (data, number))
    (received : codec.receive data = some (.callback answer))
    (entry : (net side).table.callbacks answer.callbackId = some target) :
    deliver codec net side index = some (update net side
      { net side with
        table := (net side).table.remove answer.callbackId
        inbox := (net side).inbox.eraseIdx index
        fired := ⟨target, answer.isSuccess, answer.response⟩ :: (net side).fired } []) := by
  simp only [deliver, present, Option.map_some, received,
    WorkerEndpoint.onMessage_callback_of_some entry]

/-- A reply that can be serialized. -/
theorem reply_of_serialized {index : Nat} {held : Held} {success : Bool} {response : Ref memory}
    (present : (net side).held[index]? = some held) (unfired : held.callback.fired = false)
    (serialized : codec.serialize memory (.callback
      { callbackId := held.callback.callbackId, response := response, isSuccess := success }) =
        .ok data) :
    reply codec net side index memory success response = some (update net side
      { net side with
        held := (net side).held.set index
          { held with callback := { held.callback with fired := true } }
        given := (held.call, (success, codec.observe memory response)) :: (net side).given }
      [(data, held.call)]) := by
  simp only [reply, present, Option.map_some, WorkerEndpoint.useReply,
    ReplyCallback.use_of_not_fired _ unfired, WorkerEndpoint.sendCallback,
    WorkerEndpoint.postMessage, serialized]

end Spec

/-! ## The messages behind the data -/

section Lists

variable {α β : Type} {R : α → β → Prop} {list : List α} {others : List β}

theorem exists_related (all : List.Forall₂ R list others) {index : Nat} {element : α}
    (present : list[index]? = some element) :
    ∃ other, others[index]? = some other ∧ R element other := by
  induction all generalizing index with
  | nil => cases present
  | cons head _ ih =>
      cases index with
      | zero =>
          cases present
          exact ⟨_, rfl, head⟩
      | succ index => exact ih present

theorem eraseIdx_related (all : List.Forall₂ R list others) (index : Nat) :
    List.Forall₂ R (list.eraseIdx index) (others.eraseIdx index) := by
  rw [List.eraseIdx_eq_take_drop_succ, List.eraseIdx_eq_take_drop_succ]
  exact List.rel_append (List.forall₂_take index all) (List.forall₂_drop (index + 1) all)

end Lists

section Related

variable {codec : Codec M Ref W V}

/-- The data is read as the message is received. -/
def Carries (codec : Codec M Ref W V) (posted : W × Nat) (flight : Flight V) : Prop :=
  codec.receive posted.1 = some flight.message.received ∧ posted.2 = flight.call

/-- An end that exchanges data and one that exchanges messages, in the same state. -/
structure Represents (codec : Codec M Ref W V) (one : End W V) (other : WorkerPair.End V) :
    Prop where
  table_eq : one.table = other.table
  inbox : List.Forall₂ (Carries codec) one.inbox other.inbox
  held_eq : one.held = other.held
  fired_eq : one.fired = other.fired
  given_eq : one.given = other.given
  calls_eq : one.calls = other.calls

/-- The two nets are in the same state. -/
def Related (codec : Codec M Ref W V) (net : Net W V) (other : WorkerPair.Net V) : Prop :=
  ∀ side, Represents codec (net side) (other side)

theorem Related.update {net : Net W V} {other : WorkerPair.Net V} (related : Related codec net other)
    {side : Side} {changed : End W V} {otherChanged : WorkerPair.End V} {posted : List (W × Nat)}
    {flights : List (Flight V)} (represents : Represents codec changed otherChanged)
    (carries : List.Forall₂ (Carries codec) posted flights) :
    Related codec (update net side changed posted)
      (WorkerPair.update other side otherChanged flights) := by
  intro target
  rcases side.eq_or_eq_other target with rfl | rfl
  · simpa [WirePair.update, WorkerPair.update] using represents
  · have peer := related side.other
    have inbox := List.rel_append carries peer.inbox
    simpa [WirePair.update, WorkerPair.update] using { peer with inbox := inbox }

variable {net next : Net W V} {other : WorkerPair.Net V}

/-- A call that fits is a call. -/
theorem Related.call (related : Related codec net other) {side : Side} {memory : M}
    {method : String} {withCallback : Bool} {params : Option (List (Ref memory))}
    (fits : codec.Fits memory (callMessage net side memory method withCallback params)) :
    ∃ otherNext,
      WorkerPair.call other side method withCallback
        (params.map (List.map (codec.observe memory))) = some otherNext ∧
      Related codec (call codec net side memory method withCallback params) otherNext := by
  rcases codec.receive_serialize _ _ fits with ⟨data, serialized, received⟩
  have caller := related side
  refine ⟨_, rfl, ?_⟩
  rw [call_of_serialized serialized]
  simp only [← caller.table_eq, ← caller.calls_eq]
  apply related.update
  · exact { caller with table_eq := rfl, calls_eq := rfl }
  · exact .cons ⟨received, rfl⟩ .nil

/-- Data is delivered as a message is. -/
theorem Related.deliver (related : Related codec net other) {side : Side} {index : Nat}
    (step : deliver codec net side index = some next) :
    ∃ otherNext, WorkerPair.deliver other side index = some otherNext ∧
      Related codec next otherNext := by
  have receiver := related side
  rcases Option.map_eq_some_iff.mp step with ⟨⟨data, call⟩, present, delivered⟩
  rcases exists_related receiver.inbox present with ⟨flight, otherPresent, received, ⟨⟩⟩
  have erased := eraseIdx_related receiver.inbox index
  simp only [received, receiver.table_eq] at delivered
  rw [WorkerPair.deliver, otherPresent, Option.map_some]
  refine ⟨_, rfl, ?_⟩
  cases handled : (WorkerEndpoint.onMessage (other side).table flight.message.received).2 with
  | invoke method params =>
      simp only [handled] at delivered ⊢
      subst delivered
      apply related.update _ .nil
      exact { receiver with table_eq := rfl, inbox := erased, held_eq := by rw [receiver.held_eq] }
  | fire callback success response =>
      simp only [handled] at delivered ⊢
      subst delivered
      apply related.update _ .nil
      exact { receiver with table_eq := rfl, inbox := erased, fired_eq := by rw [receiver.fired_eq] }
  | ignored =>
      simp only [handled] at delivered ⊢
      subst delivered
      apply related.update _ .nil
      exact { receiver with table_eq := rfl, inbox := erased }

/-- A reply that fits is a reply. -/
theorem Related.reply (related : Related codec net other) {side : Side} {index : Nat}
    {memory : M} {success : Bool} {response : Ref memory}
    (fits : ∀ held, (net side).held[index]? = some held →
      codec.Fits memory (.callback
        { callbackId := held.callback.callbackId, response := response, isSuccess := success }))
    (step : reply codec net side index memory success response = some next) :
    ∃ otherNext,
      WorkerPair.reply other side index success (codec.observe memory response) =
        some otherNext ∧
      Related codec next otherNext := by
  have receiver := related side
  rcases Option.map_eq_some_iff.mp step with ⟨held, present, used⟩
  rcases codec.receive_serialize _ _ (fits held present) with ⟨data, serialized, received⟩
  have otherPresent : (other side).held[index]? = some held := receiver.held_eq ▸ present
  rw [WorkerPair.reply, otherPresent, Option.map_some]
  refine ⟨_, rfl, ?_⟩
  cases fired : held.callback.fired with
  | false =>
      cases (reply_of_serialized present fired serialized).symm.trans step
      simp only [WorkerEndpoint.useReply, ReplyCallback.use_of_not_fired _ fired,
        WorkerEndpoint.sendCallback, WorkerEndpoint.postMessage]
      apply related.update
      · exact { receiver with
          held_eq := by rw [receiver.held_eq], given_eq := by rw [receiver.given_eq] }
      · exact .cons ⟨received, rfl⟩ .nil
  | true =>
      simp only [WorkerEndpoint.useReply, ReplyCallback.use_of_fired _ fired] at used ⊢
      subst used
      apply related.update _ .nil
      exact { receiver with held_eq := by rw [receiver.held_eq] }

/-- Every step that fits is matched by a step on messages. -/
theorem Related.machine_next (related : Related codec net other) {action : Action M Ref}
    (fits : Fits codec net action) (step : (machine codec).next net action = some next) :
    ∃ matching otherNext, WorkerPair.machine.next other matching = some otherNext ∧
      Related codec next otherNext := by
  cases action with
  | call side memory method withCallback params =>
      cases step
      rcases related.call fits with ⟨otherNext, matched, relatedNext⟩
      exact ⟨.call side method withCallback _, otherNext, matched, relatedNext⟩
  | deliver side index =>
      rcases related.deliver step with ⟨otherNext, matched, relatedNext⟩
      exact ⟨.deliver side index, otherNext, matched, relatedNext⟩
  | reply side index memory success response =>
      rcases related.reply fits step with ⟨otherNext, matched, relatedNext⟩
      exact ⟨.reply side index success _, otherNext, matched, relatedNext⟩

/-- Every net that runs of fitting actions lead to is in the state of one that exchanges
messages. -/
theorem exists_related_net (reachable : (machine codec).ReachableBy (Fits codec) net) :
    ∃ other, WorkerPair.machine.Reachable other ∧ Related codec net other := by
  refine reachable.simulated ?_ ?_
  · exact fun _ => ⟨rfl, .nil, rfl, rfl, rfl, rfl⟩
  · intro source target action state fits step related
    exact related.machine_next fits step

end Related

/-! ## One call and its reply -/

/-- A call of the page that fits is answered by a reply that fits: then nothing is left in
flight, and the callback has fired with what was given. -/
theorem reachable_answered (codec : Codec M Ref W V) {memory peerMemory : M} {method : String}
    {params : List (Ref memory)} {success : Bool} {response : Ref peerMemory}
    (fitsCall : codec.Fits memory (.invocation
      { method := method, parameters := some params, callbackId := 1 }))
    (fitsReply : codec.Fits peerMemory (.callback
      { callbackId := 1, response := response, isSuccess := success })) :
    ∃ net, (machine codec).runFrom (machine codec).init
        [.call .page memory method true (some params), .deliver .worker 0,
          .reply .worker 0 peerMemory success response, .deliver .page 0] = some net ∧
      (machine codec).ReachableBy (Fits codec) net ∧
      net .page = { End.init with
        table := (CallbackTable.new.register 0).2.remove 1
        fired := [⟨0, success, codec.observe peerMemory response⟩]
        calls := 1 } ∧
      net .worker = { End.init with
        held := [⟨{ callbackId := 1, fired := true }, 0⟩]
        given := [(0, (success, codec.observe peerMemory response))] } := by
  rcases codec.receive_serialize _ _ fitsCall with ⟨request, sendsCall, receivesCall⟩
  rcases codec.receive_serialize _ _ fitsReply with ⟨answer, sendsReply, receivesReply⟩
  have called : call codec (machine codec).init .page memory method true (some params) = _ :=
    call_of_serialized sendsCall
  generalize posted_eq : call codec _ .page memory method true (some params) = posted at called
  have posts : (posted .worker).inbox[0]? = some (request, 0) := by
    rw [called]
    rfl
  have invokes : deliver codec posted .worker 0 = _ :=
    deliver_invocation posts receivesCall (show (1 : JInt) ≠ 0 by decide)
  generalize waiting_eq : update posted .worker _ [] = waiting at invokes
  have isHeld : (waiting .worker).held = [⟨{ callbackId := 1 }, 0⟩] := by
    rw [← waiting_eq, called]
    rfl
  have holds : (waiting .worker).held[0]? = some ⟨{ callbackId := 1 }, 0⟩ := by
    rw [isHeld]
    rfl
  have replies : reply codec waiting .worker 0 peerMemory success response = _ :=
    reply_of_serialized holds rfl sendsReply
  generalize answered_eq : update waiting .worker _ _ = answered at replies
  have arrives : (answered .page).inbox[0]? = some (answer, 0) := by
    rw [← answered_eq, ← waiting_eq, called]
    rfl
  have entry : (answered .page).table.callbacks 1 = some 0 := by
    rw [← answered_eq, ← waiting_eq, called]
    rfl
  have fires : deliver codec answered .page 0 = _ := deliver_callback arrives receivesReply entry
  generalize fired_eq : update answered .page _ [] = next at fires
  have firstStep : (machine codec).next (machine codec).init
      (.call .page memory method true (some params)) = some posted := congrArg some posted_eq
  have secondStep : (machine codec).next posted (.deliver .worker 0) = some waiting := invokes
  have thirdStep : (machine codec).next waiting
      (.reply .worker 0 peerMemory success response) = some answered := replies
  have lastStep : (machine codec).next answered (.deliver .page 0) = some next := fires
  have replyFits : Fits codec waiting (.reply .worker 0 peerMemory success response) := by
    intro held present
    rw [isHeld] at present
    cases present
    exact fitsReply
  have callFits : Fits codec (machine codec).init
      (.call .page memory method true (some params)) := fitsCall
  have deliverFits (net : Net W V) (side : Side) : Fits codec net (.deliver side 0) := trivial
  have page : next .page = { End.init with
      table := (CallbackTable.new.register 0).2.remove 1
      fired := [⟨0, success, codec.observe peerMemory response⟩]
      calls := 1 } := by
    rw [← fired_eq, ← answered_eq, ← waiting_eq, called]
    rfl
  have worker : next .worker = { End.init with
      held := [⟨{ callbackId := 1, fired := true }, 0⟩]
      given := [(0, (success, codec.observe peerMemory response))] } := by
    rw [← fired_eq, ← answered_eq, ← waiting_eq, called]
    rfl
  refine ⟨next, ?_, ?_, ?_, ?_⟩
  · simp only [Machine.runFrom, firstStep, secondStep, thirdStep, lastStep, Option.bind_some]
  · exact .step (.step (.step (.step .init callFits firstStep) (deliverFits _ _) secondStep)
      replyFits thirdStep) (deliverFits _ _) lastStep
  · exact page
  · exact worker

/-! ## Conservation -/

/-- What is conserved while data is exchanged.  All data in flight can be read; a reply
in flight will fire the callback of its call; at rest every callback of a call has fired
once; and a callback fires with what the peer gave, as far as it can be observed. -/
structure Conservation (codec : Codec M Ref W V) (net : Net W V) : Prop where
  arrives : ∀ side, ∀ posted ∈ (net side).inbox, ∃ message, codec.receive posted.1 = some message
  answer_fires : ∀ side, ∀ posted ∈ (net side).inbox, ∀ answer,
    codec.receive posted.1 = some (.callback answer) →
      (WorkerEndpoint.onMessage (net side).table (.callback answer)).2 =
        .fire posted.2 answer.isSuccess answer.response
  at_rest :
    (∀ side, (net side).inbox = [] ∧ ∀ held ∈ (net side).held, held.callback.fired) →
      ∀ side, (∀ callbackId, (net side).table.callbacks callbackId = none) ∧
        ((net side).fired.map Fired.call).Perm (List.range (net side).calls)
  agreement : ∀ side, Agreement (net side).fired (net side.other).given

theorem Related.conservation {codec : Codec M Ref W V} {net : Net W V}
    {other : WorkerPair.Net V} (related : Related codec net other)
    (sound : WorkerPair.Sound other) : Conservation codec net where
  arrives := by
    intro side posted present
    rcases List.getElem?_of_mem present with ⟨index, atIndex⟩
    rcases exists_related (related side).inbox atIndex with ⟨flight, _, received, _⟩
    exact ⟨_, received⟩
  answer_fires := by
    intro side posted present answer isAnswer
    rcases List.getElem?_of_mem present with ⟨index, atIndex⟩
    rcases exists_related (related side).inbox atIndex with ⟨flight, otherIndex, received, call⟩
    have same := Option.some.inj (received.symm.trans isAnswer)
    have isCallback : flight.message = .callback answer := by
      cases message_eq : flight.message with
      | invocation call =>
          rw [message_eq] at same
          cases same
      | callback sent =>
          rw [message_eq] at same
          cases same
          rfl
    have sent : (other side).inbox[index]? = some ⟨.callback answer, flight.call⟩ := by
      rw [otherIndex, ← isCallback]
    have entry : (net side).table.callbacks answer.callbackId = some posted.2 := by
      rw [(related side).table_eq, call]
      exact (sound side).entry_of_reply sent
    rw [WorkerEndpoint.onMessage_callback_of_some entry]
  at_rest := by
    intro quiet side
    have otherQuiet : ∀ target, (other target).inbox = [] ∧
        ∀ held ∈ (other target).held, held.callback.fired := by
      intro target
      have inbox := (related target).inbox
      rw [(quiet target).1, List.forall₂_nil_left_iff] at inbox
      exact ⟨inbox, (related target).held_eq ▸ (quiet target).2⟩
    rw [(related side).table_eq, (related side).fired_eq, (related side).calls_eq]
    exact (sound side).at_rest rfl (otherQuiet side.other).1 (otherQuiet side.other).2
      (otherQuiet side).1
  agreement := by
    intro side
    rw [(related side).fired_eq, (related side.other).given_eq]
    exact (sound side).agreement

/-- Callbacks are conserved in every run in which what is sent fits. -/
theorem conservation_of_reachable {codec : Codec M Ref W V} {net : Net W V}
    (reachable : (machine codec).ReachableBy (Fits codec) net)
    (calls : ∀ side, (net side).calls < 2 ^ 31) : Conservation codec net := by
  rcases exists_related_net reachable with ⟨other, otherReachable, related⟩
  apply related.conservation
  apply WorkerPair.sound_of_reachable otherReachable
  intro side
  rw [← (related side).calls_eq]
  exact calls side

end WebbitGwt.Rpc.WirePair
