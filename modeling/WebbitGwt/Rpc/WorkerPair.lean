import WebbitGwt.Rpc.Traffic
import WebbitGwt.Rpc.WorkerEndpoint
import WebbitGwt.Transition.Core

/-!
# Two worker endpoints on a message channel

The page and the worker each create an `AbstractWorkerEndpointImpl` around their
port, so both ends run the same code and draw callback ids from the same range.
Each end runs on a single thread, hence a call, the delivery of a message and the
use of a reply callback are one step each.  Every send serializes here.
-/

namespace WebbitGwt.Rpc.WorkerPair

open WebbitGwt.Java
open WebbitGwt.Transition

universe u

variable {V : Type u}

/-- The ends of the channel. -/
inductive Side
  | page
  | worker
  deriving DecidableEq

/-- The peer. -/
def Side.other : Side → Side
  | .page => .worker
  | .worker => .page

@[simp]
theorem Side.other_other (side : Side) : side.other.other = side := by
  cases side <;> rfl

@[simp]
theorem Side.other_ne (side : Side) : side.other ≠ side := by
  cases side <;> simp [Side.other]

@[simp]
theorem Side.ne_other (side : Side) : side ≠ side.other :=
  (Side.other_ne side).symm

theorem Side.eq_or_eq_other (side target : Side) : target = side ∨ target = side.other := by
  cases side <;> cases target <;> simp [Side.other]

/-- One endpoint, the messages on their way to it, the reply callbacks its methods
were handed, and what has happened to callbacks there. -/
structure End (V : Type u) where
  table : CallbackTable Nat
  inbox : List (Flight V)
  held : List Held
  fired : List (Fired V)
  given : List (Nat × (Bool × V))
  calls : Nat

/-- A fresh endpoint. -/
def End.init : End V where
  table := .new
  inbox := []
  held := []
  fired := []
  given := []
  calls := 0

/-- The two joined endpoints. -/
abbrev Net (V : Type u) := Side → End V

inductive Action (V : Type u)
  | call (side : Side) (method : String) (withCallback : Bool) (params : Option (List V))
  | deliver (side : Side) (index : Nat)
  | reply (side : Side) (index : Nat) (success : Bool) (response : V)

/-- Change one end, and post messages to the other. -/
def update (net : Net V) (side : Side) (changed : End V) (posted : List (Flight V)) : Net V :=
  Function.update
    (Function.update net side.other
      { net side.other with inbox := posted ++ (net side.other).inbox })
    side changed

/-- `__sendMessage` -/
def call (net : Net V) (side : Side) (method : String) (withCallback : Bool)
    (params : Option (List V)) : Option (Net V) :=
  let caller := net side
  let callback := if withCallback then some caller.calls else none
  let (table, transmission) :=
    WorkerEndpoint.sendMessage .ok caller.table method callback params
  transmission.wire.map fun message =>
    update net side
      { caller with
        table := table
        calls := if withCallback then caller.calls + 1 else caller.calls }
      [⟨message, caller.calls⟩]

/-- `__onMessage` on a message in flight. -/
def deliver (net : Net V) (side : Side) (index : Nat) : Option (Net V) :=
  let receiver := net side
  receiver.inbox[index]?.map fun flight =>
    let (table, received) := WorkerEndpoint.onMessage receiver.table flight.message.received
    let delivered := { receiver with table := table, inbox := receiver.inbox.eraseIdx index }
    match received with
    | .invoke _ params =>
        update net side
          { delivered with
            held := (params.filterMap Argument.reply?).map (⟨·, flight.call⟩) ++ receiver.held }
          []
    | .fire callback success response =>
        update net side
          { delivered with fired := ⟨callback, success, response⟩ :: receiver.fired } []
    | .ignored => update net side delivered []

/-- A method uses the reply callback it was given. -/
def reply (net : Net V) (side : Side) (index : Nat) (success : Bool) (response : V) :
    Option (Net V) :=
  let receiver := net side
  receiver.held[index]?.map fun held =>
    let (callback, transmission) :=
      WorkerEndpoint.useReply .ok held.callback success response
    let used :=
      { receiver with held := receiver.held.set index { held with callback := callback } }
    match transmission.wire with
    | some message =>
        update net side
          { used with given := (held.call, (success, response)) :: receiver.given }
          [⟨message, held.call⟩]
    | none => update net side used []

/-- Two endpoints joined by their ports. -/
def machine : Machine (Net V) (Action V) where
  init := fun _ => .init
  next net
    | .call side method withCallback params => call net side method withCallback params
    | .deliver side index => deliver net side index
    | .reply side index success response => reply net side index success response

/-! ## The two directions -/

/-- The calls one side makes. -/
def direction (net : Net V) (side : Side) : Direction V where
  asker := (net side).table
  inProgress := []
  requests := (net side.other).inbox
  held := (net side.other).held
  replies := (net side).inbox
  fired := (net side).fired
  given := (net side.other).given
  issued := (net side).calls

@[simp]
theorem update_self (net : Net V) (side : Side) (changed : End V) (posted : List (Flight V)) :
    update net side changed posted side = changed := by
  simp [update]

@[simp]
theorem update_other (net : Net V) (side : Side) (changed : End V) (posted : List (Flight V)) :
    update net side changed posted side.other =
      { net side.other with inbox := posted ++ (net side.other).inbox } := by
  simp [update]

/-- Both directions are sound. -/
def Sound (net : Net V) : Prop :=
  ∀ side, (direction net side).Sound

/-- To see that both directions are sound after a change of one side, look at the
calls of that side and at the calls of the other one. -/
theorem sound_update {net : Net V} {side : Side} {changed : End V} {posted : List (Flight V)}
    (own : Direction.Sound
      { asker := changed.table, inProgress := [],
        requests := posted ++ (net side.other).inbox, held := (net side.other).held,
        replies := changed.inbox, fired := changed.fired,
        given := (net side.other).given, issued := changed.calls })
    (others : Direction.Sound
      { asker := (net side.other).table, inProgress := [],
        requests := changed.inbox, held := changed.held,
        replies := posted ++ (net side.other).inbox, fired := (net side.other).fired,
        given := changed.given, issued := (net side.other).calls }) :
    Sound (update net side changed posted) := by
  intro target
  rcases side.eq_or_eq_other target with rfl | rfl
  · simpa [direction] using own
  · simpa [direction] using others

/-- No side's callback ids have started to repeat. -/
def WithinIds (net : Net V) : Prop :=
  ∀ side, (net side).calls < 2 ^ 31

namespace Sound

variable {net next : Net V}

theorem init : Sound (machine (V := V)).init :=
  fun _ => Direction.Sound.initial

theorem call (sound : Sound net) (within : WithinIds next) {side : Side} {method : String}
    {withCallback : Bool} {params : Option (List V)}
    (step : call net side method withCallback params = some next) : Sound next := by
  have own := sound side
  have others := sound side.other
  rw [direction, Side.other_other] at others
  cases withCallback with
  | true =>
      cases step
      have below : (net side).calls < 2 ^ 31 := by
        have bounded := within side
        simp only [if_true, update_self] at bounded
        exact (Nat.lt_succ_self _).trans bounded
      exact sound_update (own.ask below rfl) (others.cons_reply rfl)
  | false =>
      cases step
      exact sound_update (own.cons_request rfl) (others.cons_reply rfl)

theorem deliver (sound : Sound net) {side : Side} {index : Nat}
    (step : deliver net side index = some next) : Sound next := by
  have own := sound side
  have others := sound side.other
  rw [direction, Side.other_other] at others
  rcases Option.map_eq_some_iff.mp step with ⟨⟨message, number⟩, present, delivered⟩
  cases message with
  | invocation invocation =>
      cases delivered
      exact sound_update (own.erase_reply present rfl) (others.accept present _)
  | callback answer =>
      have entry : (net side).table.callbacks answer.callbackId = some number :=
        own.entry_of_reply present
      simp only [Message.received, WorkerEndpoint.onMessage_callback_of_some entry] at delivered
      cases delivered
      exact sound_update (own.redeem present) (others.erase_request present rfl)

theorem reply (sound : Sound net) {side : Side} {index : Nat} {success : Bool} {response : V}
    (step : reply net side index success response = some next) : Sound next := by
  have own := sound side
  have others := sound side.other
  rw [direction, Side.other_other] at others
  rcases Option.map_eq_some_iff.mp step with ⟨held, present, used⟩
  cases fired : held.callback.fired with
  | false =>
      simp only [WorkerEndpoint.useReply, ReplyCallback.use_of_not_fired _ fired] at used
      cases used
      exact sound_update (own.cons_request rfl)
        (others.answer present fired success response)
  | true =>
      simp only [WorkerEndpoint.useReply, ReplyCallback.use_of_fired _ fired,
        Held.set_same present] at used
      cases used
      exact sound_update own others

/-- Every step is matched in both exchanges. -/
theorem machine_next {action : Action V} (within : WithinIds next)
    (step : machine.next net action = some next) (sound : Sound net) : Sound next := by
  cases action with
  | call side method withCallback params => exact sound.call within step
  | deliver side index => exact sound.deliver step
  | reply side index success response => exact sound.reply step

end Sound

/-- Calls are only ever added. -/
theorem calls_le {net next : Net V} {action : Action V}
    (step : machine.next net action = some next) (target : Side) :
    (net target).calls ≤ (next target).calls := by
  cases action with
  | call side method withCallback params =>
      rcases side.eq_or_eq_other target with rfl | rfl <;>
        cases withCallback <;> cases step <;> simp
  | deliver side index =>
      rcases Option.map_eq_some_iff.mp step with ⟨_, _, delivered⟩
      split at delivered
      split at delivered <;> subst delivered <;>
        rcases side.eq_or_eq_other target with rfl | rfl <;> simp
  | reply side index success response =>
      rcases Option.map_eq_some_iff.mp step with ⟨_, _, used⟩
      split at used
      split at used <;> subst used <;>
        rcases side.eq_or_eq_other target with rfl | rfl <;> simp

/-- Both directions of a channel behave like exchanges in every run. -/
theorem sound_of_reachable {net : Net V} (reachable : machine.Reachable net)
    (within : WithinIds net) : Sound net :=
  reachable.invariant_below Sound.init
    (fun step within side => (calls_le step side).trans_lt (within side))
    (fun within step sound => Sound.machine_next within step sound) within

/-- What is conserved on a channel.  Every call is accounted for on both sides; a
callback invocation in flight is never discarded, it will fire the callback of its
call; and at rest no side has a callback registered, and every callback of a call
has fired exactly once, with what the peer gave. -/
structure Conservation (net : Net V) : Prop where
  accounted : ∀ side, (direction net side).Accounted
  answer_fires : ∀ side, ∀ flight ∈ (net side).inbox, ∀ answer,
    flight.message = .callback answer →
      (WorkerEndpoint.onMessage (net side).table flight.message.received).2 =
        .fire flight.call answer.isSuccess answer.response
  at_rest :
    (∀ side, (net side).inbox = [] ∧ ∀ held ∈ (net side).held, held.callback.fired) →
      ∀ side, (∀ callbackId, (net side).table.callbacks callbackId = none) ∧
        ((net side).fired.map Fired.call).Perm (List.range (net side).calls)
  agreement : ∀ side, Agreement (net side).fired (net side.other).given

/-- Callbacks are conserved in every run. -/
theorem callback_conservation {net : Net V} (reachable : machine.Reachable net)
    (calls : ∀ side, (net side).calls < 2 ^ 31) : Conservation net where
  accounted := fun side => (sound_of_reachable reachable calls side).accounted (calls side) rfl
  answer_fires := by
    rintro side ⟨message, call⟩ present answer rfl
    rcases List.getElem_of_mem present with ⟨index, inBounds, atIndex⟩
    have sent : (net side).inbox[index]? = some ⟨.callback answer, call⟩ := by
      rw [List.getElem?_eq_getElem inBounds, atIndex]
    have entry : (net side).table.callbacks answer.callbackId = some call :=
      (sound_of_reachable reachable calls side).entry_of_reply sent
    exact congrArg Prod.snd (WorkerEndpoint.onMessage_callback_of_some entry)
  at_rest := by
    intro quiet side
    exact (sound_of_reachable reachable calls side).at_rest rfl (quiet side.other).1
      (quiet side.other).2 (quiet side).1
  agreement := fun side => (sound_of_reachable reachable calls side).agreement

/-- Both ends call each other under id one; each answers the other's call, and the
page makes one more call while it answers. -/
def crossedCalls : List (Action Nat) :=
  [.call .page "connect" true (some [7]), .call .worker "progress" true none,
    .deliver .worker 0, .deliver .page 0, .call .page "cancel" false (some []),
    .reply .page 0 false 13, .reply .worker 0 true 42, .deliver .page 0, .deliver .worker 0,
    .deliver .worker 0]

/-- The crossed calls leave nothing behind. -/
theorem callback_conservation_crossedCalls :
    ∃ net : Net Nat, machine.runFrom machine.init crossedCalls = some net ∧
      (net .page).fired = [⟨0, true, 42⟩] ∧ (net .worker).fired = [⟨0, false, 13⟩] ∧
      Conservation net := by
  refine ⟨_, rfl, rfl, rfl, ?_⟩
  apply callback_conservation (Machine.reachable_of_run crossedCalls rfl)
  intro side
  cases side <;> decide

end WebbitGwt.Rpc.WorkerPair
