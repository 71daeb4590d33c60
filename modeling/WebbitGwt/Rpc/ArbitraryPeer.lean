import WebbitGwt.Rpc.RpcEndpoint
import WebbitGwt.Rpc.ServerImpl
import WebbitGwt.Rpc.WorkerEndpoint
import WebbitGwt.Transition.Core

/-!
# One endpoint against an arbitrary peer

Nothing is assumed of the peer here: it may send any message at any time.  What
the three kinds of endpoints have in common is collected in `Endpoint`, whose
laws say how a call and an incoming message act on the callback table; the
machine below runs any such endpoint, with callbacks that make calls while they
run and return or throw.
-/

namespace WebbitGwt.Rpc

open WebbitGwt.Java
open WebbitGwt.Transition

universe u

/-- An endpoint whose callbacks are numbered by the calls they were passed to.
`Call` is a call with a non-null callback, up to the callback; `receive` is told
the decoded message and says which callback it fires, if any. -/
structure Endpoint (V : Type u) where
  State : Type
  Call : Type u
  start : State
  table : State → CallbackTable Nat
  call : State → Nat → Call → State
  receive : State → Message V → State × Option Nat
  table_start : table start = .new
  table_call : ∀ state callback args,
    table (call state callback args) = ((table state).register callback).2
  table_receive_invocation : ∀ state invocation,
    table (receive state (.invocation invocation)).1 = table state ∧
      (receive state (.invocation invocation)).2 = none
  table_receive_of_some : ∀ state answer callback,
    (table state).callbacks answer.callbackId = some callback →
      table (receive state (.callback answer)).1 = (table state).remove answer.callbackId ∧
        (receive state (.callback answer)).2 = some callback
  receive_of_none : ∀ state answer,
    (table state).callbacks answer.callbackId = none →
      receive state (.callback answer) = (state, none)

variable {V : Type u}

/-- The callback that a message makes an endpoint in the browser fire. -/
def Received.fired? : Received Nat V → Option Nat
  | .fire callback _ _ => some callback
  | _ => none

/-- The callback that a message makes a server endpoint fire. -/
def RpcEndpoint.Handled.fired? : RpcEndpoint.Handled Nat V → Option Nat
  | .fire callback _ _ => some callback
  | _ => none

namespace Endpoint

/-- `ServerImpl`, with any serializer. -/
def serverImpl {W : Type u} (serialize : ServerImpl.Request V → Except String W) :
    Endpoint V where
  State := CallbackTable Nat
  Call := String × Option (List V)
  start := .new
  table := id
  call table callback args :=
    (ServerImpl.sendMessage serialize table args.1 (some callback) args.2).1
  receive table message :=
    ((ServerImpl.onMessage table message).1, (ServerImpl.onMessage table message).2.fired?)
  table_start := rfl
  table_call := fun _ _ _ => rfl
  table_receive_invocation := fun _ _ => ⟨rfl, rfl⟩
  table_receive_of_some := by
    intro table answer target (entry : table.callbacks answer.callbackId = some target)
    rw [ServerImpl.onMessage_callback_of_some entry]
    exact ⟨rfl, rfl⟩
  receive_of_none := by
    intro table answer (entry : table.callbacks answer.callbackId = none)
    rw [ServerImpl.onMessage_callback_of_none entry]
    rfl

/-- `AbstractWorkerEndpointImpl`, with any serializer. -/
def worker {W : Type u} (serialize : RemoteMessage V → Except String W) : Endpoint V where
  State := CallbackTable Nat
  Call := String × Option (List V)
  start := .new
  table := id
  call table callback args :=
    (WorkerEndpoint.sendMessage serialize table args.1 (some callback) args.2).1
  receive table message :=
    ((WorkerEndpoint.onMessage table message).1,
      (WorkerEndpoint.onMessage table message).2.fired?)
  table_start := rfl
  table_call := fun _ _ _ => rfl
  table_receive_invocation := fun _ _ => ⟨rfl, rfl⟩
  table_receive_of_some := by
    intro table answer target (entry : table.callbacks answer.callbackId = some target)
    rw [WorkerEndpoint.onMessage_callback_of_some entry]
    exact ⟨rfl, rfl⟩
  receive_of_none := by
    intro table answer (entry : table.callbacks answer.callbackId = none)
    rw [WorkerEndpoint.onMessage_callback_of_none entry]
    rfl

/-- `RpcEndpoint` with a server object of the given public methods.  A call is one
of a method of the client interface that takes a callback. -/
def rpcEndpoint {W : Type u} (encodeResponse : ClientMessage V → Except String W)
    (methods : List Method) : Endpoint V where
  State := RpcEndpoint.State Nat
  Call := { method : Method //
    RpcEndpoint.IH.refusal method = none ∧ RpcEndpoint.IH.hasCallback method = true } × List V
  start := .new
  table := RpcEndpoint.State.callbackTable
  call state callback args :=
    (RpcEndpoint.IH.invoke encodeResponse state args.1.1 (.withCallback args.2 callback)).1
  receive state message :=
    ((RpcEndpoint.handleMessage methods state message).1,
      (RpcEndpoint.handleMessage methods state message).2.fired?)
  table_start := rfl
  table_call := by
    rintro state callback ⟨⟨method, accepted, takesCallback⟩, args⟩
    simp only [RpcEndpoint.IH.invoke, accepted, takesCallback]
  table_receive_invocation := by
    intro state invocation
    simp [RpcEndpoint.handleMessage_invocation, RpcEndpoint.Handled.fired?]
  table_receive_of_some := by
    intro state answer callback entry
    simp [RpcEndpoint.handleMessage_callback_of_some entry, RpcEndpoint.Handled.fired?]
  receive_of_none := by
    intro state answer entry
    simp [RpcEndpoint.handleMessage_callback_of_none entry, RpcEndpoint.Handled.fired?]

/-! ## Runs -/

/-- An endpoint, the callbacks that are running, innermost first, and the logs:
the ids issued, latest first; the ids that incoming callback messages carried
after they had been issued; the callbacks fired; the callbacks that have thrown. -/
structure Log (endpoint : Endpoint V) where
  state : endpoint.State
  running : List Nat
  issued : List JInt
  answered : List JInt
  fired : List Nat
  threw : List Nat

/-- A local call, possibly from a running callback, whether or not its arguments
can be serialized; a message from the peer; the end of the innermost callback. -/
inductive Event (endpoint : Endpoint V)
  | call (args : endpoint.Call)
  | receive (message : Message V)
  | finish (throws : Bool)

/-- A callback message answers an id that has been issued. -/
def Log.answers {endpoint : Endpoint V} (log : Log endpoint) : Message V → List JInt
  | .callback answer =>
      if answer.callbackId ∈ log.issued then answer.callbackId :: log.answered else log.answered
  | .invocation _ => log.answered

/-- Messages are handled one at a time: the next one is only taken when no callback
is running. -/
def machine (endpoint : Endpoint V) : Machine (Log endpoint) (Event endpoint) where
  init :=
    { state := endpoint.start, running := [], issued := [], answered := [], fired := [],
      threw := [] }
  next log
    | .call args =>
        some
          { log with
            state := endpoint.call log.state log.issued.length args
            issued := (endpoint.table log.state).takeId.1 :: log.issued }
    | .receive message =>
        match log.running with
        | [] =>
            let (state, callback?) := endpoint.receive log.state message
            some
              { log with
                state := state
                running := callback?.toList
                answered := log.answers message
                fired := callback?.toList ++ log.fired }
        | _ :: _ => none
    | .finish throws =>
        match log.running with
        | [] => none
        | callback :: outer =>
            some
              { log with
                running := outer
                threw := if throws then callback :: log.threw else log.threw }

/-- What a step can do. -/
theorem machine_cases {endpoint : Endpoint V} {log next : Log endpoint} {event : Event endpoint}
    (step : (machine endpoint).next log event = some next) :
    (∃ args, event = .call args ∧ next =
      { log with
        state := endpoint.call log.state log.issued.length args
        issued := (endpoint.table log.state).takeId.1 :: log.issued }) ∨
    (∃ message, event = .receive message ∧ log.running = [] ∧ next =
      { log with
        state := (endpoint.receive log.state message).1
        running := (endpoint.receive log.state message).2.toList
        answered := log.answers message
        fired := (endpoint.receive log.state message).2.toList ++ log.fired }) ∨
    (∃ throws callback outer, event = .finish throws ∧ log.running = callback :: outer ∧ next =
      { log with
        running := outer
        threw := if throws then callback :: log.threw else log.threw }) := by
  cases event with
  | call args =>
      cases step
      exact Or.inl ⟨args, rfl, rfl⟩
  | receive message =>
      cases running : log.running with
      | nil =>
          simp only [machine, running] at step
          cases step
          exact Or.inr (Or.inl ⟨message, rfl, rfl, rfl⟩)
      | cons callback outer =>
          simp only [machine, running] at step
          cases step
  | finish throws =>
      cases running : log.running with
      | nil =>
          simp only [machine, running] at step
          cases step
      | cons callback outer =>
          simp only [machine, running] at step
          cases step
          exact Or.inr (Or.inr ⟨throws, callback, outer, rfl, rfl, rfl⟩)

/-- What holds of every state of a run, whatever the peer has sent. -/
structure Guarded {endpoint : Endpoint V} (log : Log endpoint) : Prop where
  registered_iff : ∀ callbackId, (endpoint.table log.state).containsKey callbackId ↔
    callbackId ∈ log.issued ∧ callbackId ∉ log.answered
  fired_once : log.fired.Nodup
  unknown_ignored : ∀ answer : CallbackInvocation V,
    ¬ (answer.callbackId ∈ log.issued ∧ answer.callbackId ∉ log.answered) →
      endpoint.receive log.state (.callback answer) = (log.state, none)
  thrown_unregistered : ∀ callback ∈ log.threw, ∀ callbackId,
    (endpoint.table log.state).callbacks callbackId ≠ some callback

/-- The table holds the callbacks of the calls that have not fired, and nothing else. -/
structure Waiting {endpoint : Endpoint V} (log : Log endpoint) : Prop where
  counter : (endpoint.table log.state).nextCallbackId = CallbackTable.idOf log.issued.length
  entry_iff : ∀ callbackId call, (endpoint.table log.state).callbacks callbackId = some call ↔
    call < log.issued.length ∧ CallbackTable.idOf call = callbackId ∧ call ∉ log.fired
  fired_lt : ∀ call ∈ log.fired, call < log.issued.length

namespace Waiting

variable {endpoint : Endpoint V} {log : Log endpoint}

theorem init : Waiting (machine endpoint).init := by
  constructor <;> simp [machine, endpoint.table_start, CallbackTable.new]

/-- A call registers its callback; if there have been calls of its id before, they have
fired. -/
theorem call (waiting : Waiting log)
    (allFired : ∀ earlier < log.issued.length,
      CallbackTable.idOf earlier = CallbackTable.idOf log.issued.length → earlier ∈ log.fired)
    (args : endpoint.Call) :
    Waiting
      { log with
        state := endpoint.call log.state log.issued.length args
        issued := (endpoint.table log.state).takeId.1 :: log.issued } where
  counter := by
    rw [endpoint.table_call, CallbackTable.register_snd_nextCallbackId, waiting.counter]
    exact CallbackTable.idOf_add_one _
  entry_iff := by
    intro callbackId call
    have notFired : log.issued.length ∉ log.fired :=
      fun fired => Nat.lt_irrefl _ (waiting.fired_lt _ fired)
    simp only [endpoint.table_call, CallbackTable.register_snd_callbacks, waiting.counter,
      List.length_cons]
    by_cases fresh : callbackId = CallbackTable.idOf log.issued.length
    · subst fresh
      rw [Function.update_self, Option.some.injEq]
      constructor
      · rintro rfl
        exact ⟨Nat.lt_succ_self _, rfl, notFired⟩
      · rintro ⟨callLt, sameId, unfired⟩
        rcases Nat.lt_succ_iff_lt_or_eq.mp callLt with earlier | same
        · exact absurd (allFired call earlier sameId) unfired
        · exact same.symm
    · rw [Function.update_of_ne fresh, waiting.entry_iff]
      constructor
      · rintro ⟨callLt, rest⟩
        exact ⟨Nat.lt_succ_of_lt callLt, rest⟩
      · rintro ⟨callLt, sameId, unfired⟩
        rcases Nat.lt_succ_iff_lt_or_eq.mp callLt with callLt | rfl
        · exact ⟨callLt, sameId, unfired⟩
        · exact absurd sameId.symm fresh
  fired_lt := fun call fired => Nat.lt_succ_of_lt (waiting.fired_lt call fired)

/-- A callback that is removed from the table is fired. -/
theorem fire (waiting : Waiting log) {callbackId : JInt} {target : Nat} {state : endpoint.State}
    (entry : (endpoint.table log.state).callbacks callbackId = some target)
    (removed : endpoint.table state = (endpoint.table log.state).remove callbackId)
    (answered : List JInt) :
    Waiting
      { log with
        state := state
        running := [target]
        answered := answered
        fired := target :: log.fired } := by
  rcases (waiting.entry_iff _ _).mp entry with ⟨targetLt, sameId, unfired⟩
  constructor <;> simp only [removed]
  · exact waiting.counter
  · intro other call
    simp only [CallbackTable.remove, List.mem_cons, not_or]
    by_cases sameKey : other = callbackId
    · subst sameKey
      rw [Function.update_self]
      simp only [reduceCtorEq, false_iff, not_and, not_not]
      intro callLt callId notTarget
      by_contra callUnfired
      have otherEntry := (waiting.entry_iff _ call).mpr ⟨callLt, callId, callUnfired⟩
      exact notTarget (Option.some.inj (otherEntry.symm.trans entry))
    · rw [Function.update_of_ne sameKey, waiting.entry_iff]
      constructor
      · rintro ⟨callLt, callId, callUnfired⟩
        refine ⟨callLt, callId, ?_, callUnfired⟩
        rintro rfl
        exact sameKey (callId.symm.trans sameId)
      · rintro ⟨callLt, callId, _, callUnfired⟩
        exact ⟨callLt, callId, callUnfired⟩
  · simpa using ⟨targetLt, waiting.fired_lt⟩

/-- A message either leaves the table alone or fires the callback it removes. -/
theorem receive (waiting : Waiting log) (message : Message V) :
    Waiting
      { log with
        state := (endpoint.receive log.state message).1
        running := (endpoint.receive log.state message).2.toList
        answered := log.answers message
        fired := (endpoint.receive log.state message).2.toList ++ log.fired } := by
  cases message with
  | invocation invocation =>
      rcases endpoint.table_receive_invocation log.state invocation with ⟨sameTable, noneFired⟩
      rw [noneFired]
      exact ⟨by rw [sameTable]; exact waiting.counter,
        by rw [sameTable]; exact waiting.entry_iff, waiting.fired_lt⟩
  | callback answer =>
      cases entry : (endpoint.table log.state).callbacks answer.callbackId with
      | none =>
          rw [endpoint.receive_of_none _ _ entry]
          exact ⟨waiting.counter, waiting.entry_iff, waiting.fired_lt⟩
      | some target =>
          rcases endpoint.table_receive_of_some _ _ _ entry with ⟨removed, fires⟩
          rw [fires]
          exact waiting.fire entry removed _

end Waiting

/-- The inductive invariant: the table holds the callbacks of the calls that have
not fired, and an issued id has been answered if and only if its call has fired. -/
structure Invariant {endpoint : Endpoint V} (log : Log endpoint) : Prop extends Waiting log where
  issued_iff : ∀ callbackId, callbackId ∈ log.issued ↔
    ∃ call < log.issued.length, CallbackTable.idOf call = callbackId
  answered_iff : ∀ callbackId, callbackId ∈ log.answered ↔
    ∃ call ∈ log.fired, CallbackTable.idOf call = callbackId
  fired_nodup : log.fired.Nodup
  running_fired : ∀ call ∈ log.running, call ∈ log.fired
  threw_fired : ∀ call ∈ log.threw, call ∈ log.fired

namespace Invariant

variable {endpoint : Endpoint V} {log : Log endpoint}

theorem init : Invariant (machine endpoint).init := by
  refine ⟨Waiting.init, ?_, ?_, ?_, ?_, ?_⟩ <;> simp [machine]

/-- A call registers its callback under an id that no earlier call has had. -/
theorem call (invariant : Invariant log) (below : log.issued.length < 2 ^ 31)
    (args : endpoint.Call) :
    Invariant
      { log with
        state := endpoint.call log.state log.issued.length args
        issued := (endpoint.table log.state).takeId.1 :: log.issued } := by
  have noneEarlier : ∀ earlier < log.issued.length,
      CallbackTable.idOf earlier = CallbackTable.idOf log.issued.length →
        earlier ∈ log.fired := by
    intro earlier earlierLt sameId
    have same := CallbackTable.idOf_injective_below (earlierLt.trans below) below sameId
    exact absurd same (Nat.ne_of_lt earlierLt)
  constructor
  · exact invariant.toWaiting.call noneEarlier args
  · intro callbackId
    simp only [CallbackTable.takeId_fst, invariant.counter, List.mem_cons, List.length_cons,
      invariant.issued_iff]
    constructor
    · rintro (rfl | ⟨call, callLt, sameId⟩)
      · exact ⟨_, Nat.lt_succ_self _, rfl⟩
      · exact ⟨call, Nat.lt_succ_of_lt callLt, sameId⟩
    · rintro ⟨call, callLt, sameId⟩
      rcases Nat.lt_succ_iff_lt_or_eq.mp callLt with callLt | rfl
      · exact Or.inr ⟨call, callLt, sameId⟩
      · exact Or.inl sameId.symm
  · exact invariant.answered_iff
  · exact invariant.fired_nodup
  · exact invariant.running_fired
  · exact invariant.threw_fired

/-- An id without an entry has not been issued, or has been answered before. -/
theorem answers_of_none (invariant : Invariant log) {answer : CallbackInvocation V}
    (entry : (endpoint.table log.state).callbacks answer.callbackId = none) :
    ∀ callbackId, callbackId ∈ log.answers (.callback answer) ↔ callbackId ∈ log.answered := by
  intro callbackId
  rw [Log.answers]
  split
  · rename_i issued
    rcases (invariant.issued_iff _).mp issued with ⟨call, callLt, sameId⟩
    have fired : call ∈ log.fired := by
      by_contra unfired
      have found := (invariant.entry_iff _ _).mpr ⟨callLt, sameId, unfired⟩
      rw [entry] at found
      cases found
    have answered := (invariant.answered_iff _).mpr ⟨call, fired, sameId⟩
    rw [List.mem_cons, or_iff_right_iff_imp]
    rintro rfl
    exact answered
  · rfl

/-- A message that fires nothing leaves the table as it is, and no other ids answered. -/
theorem keep (invariant : Invariant log) {state : endpoint.State} {answered : List JInt}
    (sameTable : endpoint.table state = endpoint.table log.state)
    (sameAnswers : ∀ callbackId, callbackId ∈ answered ↔ callbackId ∈ log.answered) :
    Invariant { log with state := state, running := [], answered := answered } where
  counter := by rw [sameTable, invariant.counter]
  entry_iff := by
    rw [sameTable]
    exact invariant.entry_iff
  fired_lt := invariant.fired_lt
  issued_iff := invariant.issued_iff
  answered_iff := by
    intro callbackId
    rw [sameAnswers, invariant.answered_iff]
  fired_nodup := invariant.fired_nodup
  running_fired := by simp
  threw_fired := invariant.threw_fired

/-- A callback message that finds its callback removes it and fires it. -/
theorem fire (invariant : Invariant log) {answer : CallbackInvocation V} {target : Nat}
    {state : endpoint.State}
    (entry : (endpoint.table log.state).callbacks answer.callbackId = some target)
    (removed : endpoint.table state = (endpoint.table log.state).remove answer.callbackId) :
    Invariant
      { log with
        state := state
        running := [target]
        answered := log.answers (.callback answer)
        fired := target :: log.fired } := by
  rcases (invariant.entry_iff _ _).mp entry with ⟨targetLt, sameId, unfired⟩
  have issued : answer.callbackId ∈ log.issued :=
    (invariant.issued_iff _).mpr ⟨target, targetLt, sameId⟩
  constructor
  · exact invariant.toWaiting.fire entry removed (log.answers (.callback answer))
  · exact invariant.issued_iff
  · intro callbackId
    simp only [Log.answers, if_pos issued, List.mem_cons, invariant.answered_iff,
      exists_eq_or_imp, sameId, eq_comm (a := callbackId)]
  · exact List.nodup_cons.mpr ⟨unfired, invariant.fired_nodup⟩
  · simp
  · exact fun call threw => List.mem_cons_of_mem _ (invariant.threw_fired call threw)

/-- A message is handled when no callback is running. -/
theorem receive (invariant : Invariant log) (message : Message V) :
    Invariant
      { log with
        state := (endpoint.receive log.state message).1
        running := (endpoint.receive log.state message).2.toList
        answered := log.answers message
        fired := (endpoint.receive log.state message).2.toList ++ log.fired } := by
  cases message with
  | invocation invocation =>
      rcases endpoint.table_receive_invocation log.state invocation with ⟨sameTable, noneFired⟩
      rw [noneFired]
      exact invariant.keep sameTable fun _ => Iff.rfl
  | callback answer =>
      cases entry : (endpoint.table log.state).callbacks answer.callbackId with
      | none =>
          rw [endpoint.receive_of_none _ _ entry]
          exact invariant.keep rfl (invariant.answers_of_none entry)
      | some target =>
          rcases endpoint.table_receive_of_some _ _ _ entry with ⟨removed, fires⟩
          rw [fires]
          exact invariant.fire entry removed

/-- The innermost callback returns or throws. -/
theorem finish (invariant : Invariant log) {callback : Nat} {outer : List Nat}
    (running : log.running = callback :: outer) (throws : Bool) :
    Invariant
      { log with
        running := outer
        threw := if throws then callback :: log.threw else log.threw } where
  counter := invariant.counter
  entry_iff := invariant.entry_iff
  fired_lt := invariant.fired_lt
  issued_iff := invariant.issued_iff
  answered_iff := invariant.answered_iff
  fired_nodup := invariant.fired_nodup
  running_fired := by
    intro call present
    exact invariant.running_fired call (by rw [running]; exact List.mem_cons_of_mem _ present)
  threw_fired := by
    have callbackFired : callback ∈ log.fired :=
      invariant.running_fired callback (by rw [running]; exact List.mem_cons_self)
    cases throws with
    | false => exact invariant.threw_fired
    | true =>
        rintro call (_ | ⟨_, present⟩)
        · exact callbackFired
        · exact invariant.threw_fired call present

/-- What a run is about follows. -/
theorem guarded (invariant : Invariant log) (within : log.issued.length < 2 ^ 31) :
    Guarded log := by
  have registered_iff : ∀ callbackId, (endpoint.table log.state).containsKey callbackId ↔
      callbackId ∈ log.issued ∧ callbackId ∉ log.answered := by
    intro callbackId
    rw [CallbackTable.containsKey, Option.isSome_iff_exists, invariant.issued_iff,
      invariant.answered_iff]
    constructor
    · rintro ⟨call, entry⟩
      rcases (invariant.entry_iff _ _).mp entry with ⟨callLt, sameId, unfired⟩
      refine ⟨⟨call, callLt, sameId⟩, ?_⟩
      rintro ⟨other, fired, otherId⟩
      have same := CallbackTable.idOf_injective_below (callLt.trans within)
        ((invariant.fired_lt _ fired).trans within) (sameId.trans otherId.symm)
      exact unfired (same ▸ fired)
    · rintro ⟨⟨call, callLt, sameId⟩, unanswered⟩
      refine ⟨call, (invariant.entry_iff _ _).mpr ⟨callLt, sameId, ?_⟩⟩
      intro fired
      exact unanswered ⟨call, fired, sameId⟩
  refine ⟨registered_iff, invariant.fired_nodup, ?_, ?_⟩
  · intro answer unknown
    apply endpoint.receive_of_none
    rw [← registered_iff, CallbackTable.containsKey, Bool.not_eq_true,
      Option.isSome_eq_false_iff, Option.isNone_iff_eq_none] at unknown
    exact unknown
  · intro callback threw callbackId entry
    exact ((invariant.entry_iff _ _).mp entry).2.2 (invariant.threw_fired callback threw)

end Invariant

/-- Ids are only ever issued. -/
theorem issued_le {endpoint : Endpoint V} {log next : Log endpoint} {event : Event endpoint}
    (step : (machine endpoint).next log event = some next) :
    log.issued.length ≤ next.issued.length := by
  rcases machine_cases step with ⟨args, rfl, rfl⟩ | ⟨message, rfl, _, rfl⟩ |
    ⟨throws, callback, outer, rfl, _, rfl⟩
  · exact Nat.le_succ _
  · exact Nat.le_refl _
  · exact Nat.le_refl _

/-- The invariant holds in every run, up to the wrap-around of ids. -/
theorem invariant_of_reachable {endpoint : Endpoint V} {log : Log endpoint}
    (reachable : (machine endpoint).Reachable log) (within : log.issued.length < 2 ^ 31) :
    Invariant log := by
  refine reachable.invariant_below Invariant.init
    (fun step within => (issued_le step).trans_lt within) ?_ within
  intro source target event within step invariant
  have below : source.issued.length < 2 ^ 31 := (issued_le step).trans_lt within
  rcases machine_cases step with ⟨args, rfl, rfl⟩ | ⟨message, rfl, _, rfl⟩ |
    ⟨throws, callback, outer, rfl, running, rfl⟩
  · exact invariant.call below args
  · exact invariant.receive message
  · exact invariant.finish running throws

/-- A run of an endpoint, whatever its peer sends, stays guarded. -/
theorem guarded_of_reachable {endpoint : Endpoint V} {log : Log endpoint}
    (reachable : (machine endpoint).Reachable log) (within : log.issued.length < 2 ^ 31) :
    Guarded log :=
  (invariant_of_reachable reachable within).guarded within

/-- The three endpoints stay guarded, whatever they are told to serialize and
whatever they are sent. -/
theorem arbitrary_peer {W : Type u} (serializeRequest : ServerImpl.Request V → Except String W)
    (serializeRemote : RemoteMessage V → Except String W)
    (encodeResponse : ClientMessage V → Except String W) (methods : List Method) :
    (∀ log, (machine (serverImpl serializeRequest)).Reachable log →
      log.issued.length < 2 ^ 31 → Guarded log) ∧
    (∀ log, (machine (worker serializeRemote)).Reachable log →
      log.issued.length < 2 ^ 31 → Guarded log) ∧
    (∀ log, (machine (rpcEndpoint encodeResponse methods)).Reachable log →
      log.issued.length < 2 ^ 31 → Guarded log) :=
  ⟨fun _ reachable within => guarded_of_reachable reachable within,
    fun _ reachable within => guarded_of_reachable reachable within,
    fun _ reachable within => guarded_of_reachable reachable within⟩

/-- A call; a message with an id never issued; the answer, whose callback makes
another call and throws; the answer again. -/
def forgedAndReplayed : List (Event (worker (V := Nat) (W := RemoteMessage Nat) .ok)) :=
  [.call ("connect", some [7]), .receive (.callback ⟨5, 1, true⟩),
    .receive (.callback ⟨1, 2, false⟩), .call ("connect", none), .finish true,
    .receive (.callback ⟨1, 3, true⟩)]

/-- Only the callback of the second call is left registered. -/
theorem arbitrary_peer_forgedAndReplayed :
    ∃ log, (machine (worker (V := Nat) (W := RemoteMessage Nat) .ok)).runFrom
        (machine (worker .ok)).init forgedAndReplayed = some log ∧
      log.issued = [2, 1] ∧ log.answered = [1, 1] ∧ log.fired = [0] ∧ log.threw = [0] ∧
      Guarded log := by
  refine ⟨_, rfl, rfl, rfl, rfl, rfl, ?_⟩
  refine (arbitrary_peer (fun _ => .error "") .ok .ok []).2.1 _
    (Machine.reachable_of_run forgedAndReplayed rfl) ?_
  decide

end Endpoint

end WebbitGwt.Rpc
