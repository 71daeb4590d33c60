import WebbitGwt.Exchange.Conservation
import WebbitGwt.Rpc.RpcEndpoint
import Mathlib.Algebra.Order.Group.Multiset
import Mathlib.Tactic.Abel

/-!
# Calls in one direction

The calls one side of a connection makes, wherever they are: being made by a
server thread, in flight, in the hands of a handler of the other side, on their
way back, or done.  A direction is an exchange; the lemmas below follow one
elementary change of a connection each, and both kinds of connections use them.

Messages, reply callbacks and registered callbacks carry the number of the call
they belong to.  The number is bookkeeping of the model: the endpoints never read
it, they go by callback ids alone.
-/

namespace WebbitGwt.Rpc

open WebbitGwt.Java
open WebbitGwt.Exchange (Token Place)

universe u w

variable {V : Type u}

/-- A message in flight, with the number of the callback call it belongs to.  For
an invocation without a callback id the number means nothing. -/
structure Flight (V : Type u) where
  message : Message V
  call : Nat
  deriving DecidableEq

/-- A reply callback in the hands of a handler. -/
structure Held where
  callback : ReplyCallback
  call : Nat
  deriving DecidableEq

/-- A use that is refused leaves the reply callbacks as they are. -/
theorem Held.set_same {list : List Held} {index : Nat} {held : Held}
    (present : list[index]? = some held) :
    list.set index { held with callback := held.callback } = list := by
  rcases List.getElem?_eq_some_iff.mp present with ⟨inBounds, rfl⟩
  exact List.set_getElem_self inBounds

/-- A callback that has fired, with what it was given. -/
structure Fired (V : Type u) where
  call : Nat
  success : Bool
  response : V
  deriving DecidableEq

/-- The message is an invocation that carries the callback id. -/
def Flight.requests (callbackId : JInt) (flight : Flight V) : Bool :=
  match flight.message with
  | .invocation invocation => invocation.callbackId == callbackId
  | .callback _ => false

/-- The message is a callback invocation that carries the callback id. -/
def Flight.answers (callbackId : JInt) (flight : Flight V) : Bool :=
  match flight.message with
  | .invocation _ => false
  | .callback answer => answer.callbackId == callbackId

/-- The reply callback was built for the callback id and has not been used. -/
def Held.awaits (callbackId : JInt) (held : Held) : Bool :=
  !held.callback.fired && held.callback.callbackId == callbackId

/-- Agreement of the callbacks that have fired on one side with the replies given
on the other: no call's callback fires twice, no call is answered twice, and a
callback fires with the success flag and the response its call was answered with. -/
structure Agreement (fired : List (Fired V)) (given : List (Nat × (Bool × V))) : Prop where
  fired_once : (fired.map Fired.call).Nodup
  given_once : (given.map Prod.fst).Nodup
  fired_given : ∀ event ∈ fired, (event.call, (event.success, event.response)) ∈ given

/-- How far a call on the server's client proxy has got. -/
inductive Stage
  | tookId
  | registered
  deriving DecidableEq

/-- A call on the server's client proxy that a thread has begun. -/
structure ProxyCall (V : Type u) where
  stage : Stage
  callbackId : JInt
  call : Nat
  method : Method
  args : List V
  deriving DecidableEq

/-- The tokens of an exchange whose replies are a success flag and a response. -/
abbrev CallToken (V : Type u) := Token JInt (Bool × V)

/-- The token of an invocation that carries a callback id. -/
def Flight.request? : Flight V → Option (CallToken V)
  | ⟨.invocation invocation, call⟩ =>
      if invocation.callbackId ≠ 0 then some ⟨invocation.callbackId, call, .requested⟩ else none
  | ⟨.callback _, _⟩ => none

/-- The token of a callback invocation. -/
def Flight.reply? : Flight V → Option (CallToken V)
  | ⟨.invocation _, _⟩ => none
  | ⟨.callback answer, call⟩ =>
      some ⟨answer.callbackId, call, .replied (answer.isSuccess, answer.response)⟩

/-- The token of a reply callback that has not been used. -/
def Held.token? (held : Held) : Option (CallToken V) :=
  if held.callback.fired then none
  else some ⟨held.callback.callbackId, held.call, .opened⟩

/-- The token of a callback that has fired. -/
def Fired.token (fired : Fired V) : CallToken V :=
  ⟨CallbackTable.idOf fired.call, fired.call, .fired (fired.success, fired.response)⟩

/-- The token of a proxy call in progress. -/
def ProxyCall.token (proxyCall : ProxyCall V) : CallToken V :=
  ⟨proxyCall.callbackId, proxyCall.call,
    match proxyCall.stage with
    | .tookId => .taken
    | .registered => .registered⟩

/-- Everything that belongs to the calls of one side. -/
structure Direction (V : Type u) where
  asker : CallbackTable Nat
  inProgress : List (ProxyCall V)
  requests : List (Flight V)
  held : List Held
  replies : List (Flight V)
  fired : List (Fired V)
  given : List (Nat × (Bool × V))
  issued : Nat

/-- A call is accounted for: the entries of the asker's map are in one-to-one
correspondence with the invocations in flight, the unused reply callbacks and the
callback invocations in flight that carry their ids. -/
structure Direction.Accounted (direction : Direction V) : Prop where
  exactly_one : ∀ callbackId, direction.asker.containsKey callbackId →
    direction.requests.countP (Flight.requests callbackId) +
      direction.held.countP (Held.awaits callbackId) +
      direction.replies.countP (Flight.answers callbackId) = 1
  request_registered : ∀ flight ∈ direction.requests, ∀ invocation,
    flight.message = .invocation invocation → invocation.callbackId ≠ 0 →
      direction.asker.callbacks invocation.callbackId = some flight.call
  held_registered : ∀ held ∈ direction.held, held.callback.fired = false →
    direction.asker.callbacks held.callback.callbackId = some held.call
  reply_registered : ∀ flight ∈ direction.replies, ∀ answer,
    flight.message = .callback answer →
      direction.asker.callbacks answer.callbackId = some flight.call

namespace Direction

/-- The tokens of a direction, by place. -/
def tokens (direction : Direction V) : Multiset (CallToken V) :=
  (direction.inProgress.map ProxyCall.token : Multiset (CallToken V)) +
    (direction.requests.filterMap Flight.request? : Multiset (CallToken V)) +
    (direction.held.filterMap (Held.token? (V := V)) : Multiset (CallToken V)) +
    (direction.replies.filterMap Flight.reply? : Multiset (CallToken V)) +
    (direction.fired.map Fired.token : Multiset (CallToken V))

/-- A direction as an exchange. -/
def exchange (direction : Direction V) : Exchange.State JInt (Bool × V) where
  table := direction.asker.callbacks
  tokens := direction.tokens
  gave := direction.given
  issued := direction.issued

/-- The direction is in a state the exchange can get into, and the asker's counter
stands at the id of the next call. -/
structure Sound (direction : Direction V) : Prop where
  reachable : Exchange.Reachable CallbackTable.idOf direction.exchange
  counter : direction.asker.nextCallbackId = CallbackTable.idOf direction.issued

section Tokens

variable {α : Type w} {β : Type u}

private theorem coe_filterMap_cons (f : α → Option β) (head : α) (list : List α) :
    (((head :: list).filterMap f : List β) : Multiset β) =
      ((f head).toList : Multiset β) + (list.filterMap f : Multiset β) := by
  cases found : f head <;> simp [found]

private theorem coe_filterMap_of_getElem? (f : α → Option β) {list : List α} {index : Nat}
    {element : α} (present : list[index]? = some element) :
    (list.filterMap f : Multiset β) =
      ((f element).toList : Multiset β) + ((list.eraseIdx index).filterMap f : Multiset β) := by
  rcases List.getElem?_eq_some_iff.mp present with ⟨inBounds, rfl⟩
  rw [← coe_filterMap_cons, Multiset.coe_eq_coe]
  exact (List.getElem_cons_eraseIdx_perm inBounds).symm.filterMap f

private theorem coe_filterMap_set (f : α → Option β) {list : List α} {index : Nat}
    {element : α} (present : list[index]? = some element) (replacement : α) :
    ((list.set index replacement).filterMap f : Multiset β) =
      ((f replacement).toList : Multiset β) +
        ((list.eraseIdx index).filterMap f : Multiset β) := by
  rcases List.getElem?_eq_some_iff.mp present with ⟨inBounds, rfl⟩
  rw [← coe_filterMap_cons, Multiset.coe_eq_coe]
  exact (List.set_perm_cons_eraseIdx inBounds replacement).filterMap f

private theorem coe_map_of_getElem? (f : α → β) {list : List α} {index : Nat} {element : α}
    (present : list[index]? = some element) :
    (list.map f : Multiset β) =
      {f element} + ((list.eraseIdx index).map f : Multiset β) := by
  simpa using coe_filterMap_of_getElem? (some ∘ f) present

private theorem coe_map_set (f : α → β) {list : List α} {index : Nat} {element : α}
    (present : list[index]? = some element) (replacement : α) :
    ((list.set index replacement).map f : Multiset β) =
      {f replacement} + ((list.eraseIdx index).map f : Multiset β) := by
  simpa using coe_filterMap_set (some ∘ f) present replacement

end Tokens

namespace Sound

variable {direction : Direction V}

/-- Nothing has happened yet. -/
theorem initial :
    Sound (V := V)
      { asker := .new, inProgress := [], requests := [], held := [], replies := [],
        fired := [], given := [], issued := 0 } where
  reachable := Exchange.Reachable.initial
  counter := rfl

/-- Messages of the other direction in the same channels make no difference. -/
theorem of_tokens_eq (sound : direction.Sound) {requests replies : List (Flight V)}
    (sameRequests : (requests.filterMap Flight.request? : Multiset (CallToken V)) =
      (direction.requests.filterMap Flight.request? : Multiset (CallToken V)))
    (sameReplies : (replies.filterMap Flight.reply? : Multiset (CallToken V)) =
      (direction.replies.filterMap Flight.reply? : Multiset (CallToken V))) :
    Sound { direction with requests := requests, replies := replies } where
  reachable := by
    have sameExchange :
        exchange { direction with requests := requests, replies := replies } =
          direction.exchange := by
      simp only [exchange, tokens, sameRequests, sameReplies]
    rw [sameExchange]
    exact sound.reachable
  counter := sound.counter

/-- Sending what is not a request of this direction. -/
theorem cons_request (sound : direction.Sound) {flight : Flight V}
    (other : flight.request? = none) :
    Sound { direction with requests := flight :: direction.requests } :=
  sound.of_tokens_eq (by simp [other]) rfl

/-- Sending what is not a reply of this direction. -/
theorem cons_reply (sound : direction.Sound) {flight : Flight V} (other : flight.reply? = none) :
    Sound { direction with replies := flight :: direction.replies } :=
  sound.of_tokens_eq rfl (by simp [other])

/-- Delivering what is not a request of this direction. -/
theorem erase_request (sound : direction.Sound) {index : Nat} {flight : Flight V}
    (present : direction.requests[index]? = some flight) (other : flight.request? = none) :
    Sound { direction with requests := direction.requests.eraseIdx index } :=
  sound.of_tokens_eq (by simp [coe_filterMap_of_getElem? _ present, other]) rfl

/-- Delivering what is not a reply of this direction. -/
theorem erase_reply (sound : direction.Sound) {index : Nat} {flight : Flight V}
    (present : direction.replies[index]? = some flight) (other : flight.reply? = none) :
    Sound { direction with replies := direction.replies.eraseIdx index } :=
  sound.of_tokens_eq rfl (by simp [coe_filterMap_of_getElem? _ present, other])

theorem fresh (below : direction.issued < 2 ^ 31) :
    ∀ call < direction.exchange.issued,
      CallbackTable.idOf call ≠ CallbackTable.idOf direction.exchange.issued := by
  intro call made sameId
  have callLt : call < direction.issued := made
  have same : call = direction.issued :=
    CallbackTable.idOf_injective_below (callLt.trans below) below sameId
  exact absurd same (Nat.ne_of_lt callLt)

/-- A call with a callback, from taking the id to sending, without interruption. -/
theorem ask (sound : direction.Sound) (below : direction.issued < 2 ^ 31)
    {invocation : Invocation V}
    (sentId : invocation.callbackId = direction.asker.nextCallbackId) :
    Sound
      { direction with
        asker := (direction.asker.register direction.issued).2
        requests := ⟨.invocation invocation, direction.issued⟩ :: direction.requests
        issued := direction.issued + 1 } where
  reachable := by
    have requested := sound.reachable.ask (fresh below)
    have idNe : invocation.callbackId ≠ 0 := by
      rw [sentId, sound.counter]
      exact CallbackTable.idOf_ne_zero below
    convert requested using 1
    ext1
    · simp [exchange, sound.counter]
    · simp only [exchange, tokens, coe_filterMap_cons, Flight.request?, if_pos idNe]
      simp only [Option.toList_some, Multiset.coe_singleton, sentId, sound.counter,
        ← Multiset.singleton_add]
      abel
    · rfl
    · rfl
  counter := by
    rw [CallbackTable.register_snd_nextCallbackId, sound.counter]
    exact CallbackTable.idOf_add_one _

/-- No token's id is zero. -/
theorem key_ne_zero (sound : direction.Sound) (within : direction.issued < 2 ^ 31)
    {token : CallToken V} (present : token ∈ direction.exchange.tokens) : token.key ≠ 0 := by
  have conserved := sound.reachable.conserved
  have callLt : token.call < direction.issued := conserved.call_lt present
  rw [conserved.key_eq token present]
  exact CallbackTable.idOf_ne_zero (callLt.trans within)

/-- A server thread takes an id for a call on the client proxy. -/
theorem takeId (sound : direction.Sound) (below : direction.issued < 2 ^ 31)
    (method : Method) (args : List V) :
    Sound
      { direction with
        asker := direction.asker.takeId.2
        inProgress := ⟨.tookId, direction.asker.takeId.1, direction.issued, method, args⟩ ::
          direction.inProgress
        issued := direction.issued + 1 } where
  reachable := by
    have taken := sound.reachable.step (.take (fresh below))
    convert taken using 1
    ext1
    · rfl
    · simp only [exchange, tokens, List.map_cons, ← Multiset.cons_coe, ProxyCall.token,
        CallbackTable.takeId_fst, sound.counter, ← Multiset.singleton_add]
      abel
    · rfl
    · rfl
  counter := by
    rw [CallbackTable.takeId_snd_nextCallbackId, sound.counter]
    exact CallbackTable.idOf_add_one _

/-- The thread registers the callback. -/
theorem register (sound : direction.Sound) {index : Nat} {proxyCall : ProxyCall V}
    (present : direction.inProgress[index]? = some proxyCall)
    (tookId : proxyCall.stage = .tookId) :
    Sound
      { direction with
        asker := direction.asker.put proxyCall.callbackId proxyCall.call
        inProgress := direction.inProgress.set index { proxyCall with stage := .registered } } where
  reachable := by
    have found : direction.exchange.tokens =
        ⟨proxyCall.callbackId, proxyCall.call, .taken⟩ ::ₘ
          tokens { direction with inProgress := direction.inProgress.eraseIdx index } := by
      simp only [exchange, tokens, coe_map_of_getElem? _ present, ProxyCall.token, tookId,
        ← Multiset.singleton_add]
      abel
    convert sound.reachable.step (.register found) using 1
    ext1
    · rfl
    · simp only [exchange, tokens, coe_map_set _ present, ProxyCall.token,
        ← Multiset.singleton_add]
      abel
    · rfl
    · rfl
  counter := sound.counter

/-- The thread sends the invocation. -/
theorem send (sound : direction.Sound) (within : direction.issued < 2 ^ 31) {index : Nat}
    {proxyCall : ProxyCall V} (present : direction.inProgress[index]? = some proxyCall)
    (registered : proxyCall.stage = .registered) {invocation : Invocation V}
    (sentId : invocation.callbackId = proxyCall.callbackId) :
    Sound
      { direction with
        inProgress := direction.inProgress.eraseIdx index
        requests := ⟨.invocation invocation, proxyCall.call⟩ :: direction.requests } where
  reachable := by
    have found : direction.exchange.tokens =
        ⟨proxyCall.callbackId, proxyCall.call, .registered⟩ ::ₘ
          tokens { direction with inProgress := direction.inProgress.eraseIdx index } := by
      simp only [exchange, tokens, coe_map_of_getElem? _ present, ProxyCall.token, registered,
        ← Multiset.singleton_add]
      abel
    have idNe : invocation.callbackId ≠ 0 := by
      rw [sentId]
      exact sound.key_ne_zero within (by rw [found]; exact Multiset.mem_cons_self _ _)
    convert sound.reachable.step (.request found) using 1
    ext1
    · rfl
    · simp only [exchange, tokens, coe_filterMap_cons, Flight.request?, if_pos idNe,
        Option.toList_some, Multiset.coe_singleton, ← Multiset.singleton_add, ← sentId]
      abel
    · rfl
    · rfl
  counter := sound.counter

/-- An invocation is delivered: the receiver builds a reply callback if the
invocation carries an id, and nothing changes for the exchange otherwise. -/
theorem accept (sound : direction.Sound) {index : Nat} {invocation : Invocation V} {call : Nat}
    (present : direction.requests[index]? = some ⟨.invocation invocation, call⟩)
    (parameters : List V) :
    Sound
      { direction with
        requests := direction.requests.eraseIdx index
        held := ((invocation.arguments parameters).filterMap Argument.reply?).map (⟨·, call⟩) ++
          direction.held } where
  reachable := by
    rw [Invocation.filterMap_reply?_arguments]
    by_cases carriesId : invocation.callbackId ≠ 0
    · have found : direction.exchange.tokens =
          ⟨invocation.callbackId, call, .requested⟩ ::ₘ
            tokens { direction with requests := direction.requests.eraseIdx index } := by
        simp only [exchange, tokens, coe_filterMap_of_getElem? _ present, Flight.request?,
          if_pos carriesId, Option.toList_some, Multiset.coe_singleton,
          ← Multiset.singleton_add]
        abel
      convert sound.reachable.step (.accept found) using 1
      ext1
      · rfl
      · simp only [if_pos carriesId, List.map_cons, List.map_nil, List.cons_append,
          List.nil_append, exchange, tokens, coe_filterMap_cons, Held.token?,
          Bool.false_eq_true, if_false, Option.toList_some, Multiset.coe_singleton,
          ← Multiset.singleton_add]
        abel
      · rfl
      · rfl
    · convert sound.reachable using 1
      rw [if_neg carriesId]
      simp only [exchange, tokens, coe_filterMap_of_getElem? _ present, Flight.request?,
        if_neg carriesId]
      simp
  counter := sound.counter

/-- A reply callback is used for the first time. -/
theorem answer (sound : direction.Sound) {index : Nat} {held : Held}
    (present : direction.held[index]? = some held) (unused : held.callback.fired = false)
    (success : Bool) (response : V) :
    Sound
      { direction with
        held := direction.held.set index
          { held with callback := { held.callback with fired := true } }
        replies := ⟨.callback ⟨held.callback.callbackId, response, success⟩, held.call⟩ ::
          direction.replies
        given := (held.call, (success, response)) :: direction.given } where
  reachable := by
    have found : direction.exchange.tokens =
        ⟨held.callback.callbackId, held.call, .opened⟩ ::ₘ
          tokens { direction with held := direction.held.eraseIdx index } := by
      simp only [exchange, tokens, coe_filterMap_of_getElem? _ present, Held.token?, unused,
        Bool.false_eq_true, if_false, Option.toList_some, Multiset.coe_singleton,
        ← Multiset.singleton_add]
      abel
    convert sound.reachable.step (.reply (success, response) found) using 1
    ext1
    · rfl
    · simp only [exchange, tokens, coe_filterMap_set _ present, coe_filterMap_cons, Held.token?,
        Flight.reply?, if_true, Option.toList_none, Option.toList_some, Multiset.coe_nil,
        Multiset.coe_singleton, ← Multiset.singleton_add]
      abel
    · rfl
    · rfl
  counter := sound.counter

/-- The token of a callback invocation in flight. -/
theorem replied_eq_cons {index : Nat} {answer : CallbackInvocation V} {call : Nat}
    (present : direction.replies[index]? = some ⟨.callback answer, call⟩) :
    direction.exchange.tokens =
      ⟨answer.callbackId, call, .replied (answer.isSuccess, answer.response)⟩ ::ₘ
        tokens { direction with replies := direction.replies.eraseIdx index } := by
  simp only [exchange, tokens, coe_filterMap_of_getElem? _ present, Flight.reply?,
    Option.toList_some, Multiset.coe_singleton, ← Multiset.singleton_add]
  abel

/-- A callback invocation in flight finds the callback of the call it answers. -/
theorem entry_of_reply (sound : direction.Sound) {index : Nat} {answer : CallbackInvocation V}
    {call : Nat} (present : direction.replies[index]? = some ⟨.callback answer, call⟩) :
    direction.asker.callbacks answer.callbackId = some call :=
  sound.reachable.conserved.table_eq_some (replied_eq_cons present) rfl

/-- A callback invocation is delivered and fires the callback it finds. -/
theorem redeem (sound : direction.Sound) {index : Nat} {answer : CallbackInvocation V}
    {call : Nat} (present : direction.replies[index]? = some ⟨.callback answer, call⟩) :
    Sound
      { direction with
        asker := direction.asker.remove answer.callbackId
        replies := direction.replies.eraseIdx index
        fired := ⟨call, answer.isSuccess, answer.response⟩ :: direction.fired } where
  reachable := by
    have found : direction.exchange.tokens = _ := replied_eq_cons present
    have entry := sound.entry_of_reply present
    have keyEq : answer.callbackId = CallbackTable.idOf call :=
      sound.reachable.conserved.key_eq
        ⟨answer.callbackId, call, .replied (answer.isSuccess, answer.response)⟩
        (by rw [found]; exact Multiset.mem_cons_self _ _)
    convert sound.reachable.step (.redeem found) using 1
    have entry' : direction.exchange.table answer.callbackId = some call := entry
    simp only [Exchange.redeem, entry']
    ext1
    · rfl
    · simp only [exchange, tokens, List.map_cons, ← Multiset.cons_coe, Fired.token, ← keyEq,
        ← Multiset.singleton_add]
      abel
    · rfl
    · rfl
  counter := sound.counter

/-- The two sides agree about every callback that has fired. -/
theorem agreement (sound : direction.Sound) : Agreement direction.fired direction.given := by
  have conserved := sound.reachable.conserved
  have firedTokens : ((direction.fired.map Fired.token : List (CallToken V)) :
      Multiset (CallToken V)) ≤ direction.exchange.tokens :=
    Multiset.le_add_left _ _
  refine ⟨?_, conserved.gave_nodup, ?_⟩
  · have calls_le := Multiset.map_le_map (f := Token.call) firedTokens
    rw [conserved.calls_eq] at calls_le
    have nodup := Multiset.nodup_of_le calls_le (Multiset.nodup_range _)
    simpa [List.map_map, Function.comp_def, Fired.token] using nodup
  · intro fired firedMem
    have tokenMem : fired.token ∈ direction.exchange.tokens :=
      Multiset.mem_of_le firedTokens (by simpa using ⟨fired, firedMem, rfl⟩)
    exact (conserved.gave_iff _ _).mpr ⟨fired.token, tokenMem, rfl, rfl⟩

/-- An outstanding token of a direction refers to the entry of its own call. -/
theorem entry_of_token (sound : direction.Sound) {callbackId : JInt} {call : Nat}
    (place : Place (Bool × V)) (outstanding : place.outstanding)
    (present : ⟨callbackId, call, place⟩ ∈ direction.tokens) :
    direction.asker.callbacks callbackId = some call :=
  (sound.reachable.conserved.table_iff callbackId call).mpr ⟨place, outstanding, present⟩

/-- Between steps, when no proxy call is half made, every call is accounted for. -/
theorem accounted (sound : direction.Sound) (within : direction.issued < 2 ^ 31)
    (settled : direction.inProgress = []) : direction.Accounted where
  exactly_one := by
    intro callbackId contained
    have conserved := sound.reachable.conserved
    rcases Option.isSome_iff_exists.mp contained with ⟨call, entry⟩
    rcases (conserved.table_iff callbackId call).mp entry with ⟨place, outstanding, present⟩
    have idNe : callbackId ≠ 0 := sound.key_ne_zero within present
    have counted := conserved.countP_outstanding callbackId
    have isSome : (direction.exchange.table callbackId).isSome := contained
    rw [if_pos isSome] at counted
    rw [← counted]
    simp only [exchange, tokens, settled, Multiset.countP_add, Multiset.coe_countP,
      List.countP_filterMap, List.countP_map, List.map_nil, List.countP_nil, Nat.zero_add]
    have noneFired : direction.fired.countP ((fun token : CallToken V =>
        decide (token.place.outstanding = true ∧ token.key = callbackId)) ∘ Fired.token) = 0 := by
      rw [List.countP_eq_zero]
      intro fired _
      simp [Fired.token, Place.outstanding]
    rw [noneFired, Nat.add_zero]
    congr 2
    · congr 1
      funext flight
      rcases flight with ⟨⟨invocation⟩ | _, call⟩
      · by_cases carriesId : invocation.callbackId = 0
        · simpa [Flight.requests, Flight.request?, carriesId] using Ne.symm idNe
        · simp only [Flight.requests, Flight.request?, ne_eq, carriesId, not_false_eq_true, if_true,
            beq_eq_decide]
          simp [Place.outstanding]
      · simp [Flight.requests, Flight.request?]
    · congr 1
      funext held
      cases unused : held.callback.fired <;>
        simp [Held.awaits, Held.token?, unused, Place.outstanding, beq_eq_decide]
    · funext flight
      rcases flight with ⟨_ | _, call⟩ <;>
        simp [Flight.answers, Flight.reply?, Place.outstanding, beq_eq_decide]
  request_registered := by
    rintro ⟨message, call⟩ present invocation rfl idNe
    apply sound.entry_of_token .requested rfl
    simp only [tokens, Multiset.mem_add, Multiset.mem_coe, List.mem_filterMap]
    exact Or.inl (Or.inl (Or.inl (Or.inr ⟨_, present, by rw [Flight.request?, if_pos idNe]⟩)))
  held_registered := by
    intro held present unused
    apply sound.entry_of_token .opened rfl
    simp only [tokens, Multiset.mem_add, Multiset.mem_coe, List.mem_filterMap]
    exact Or.inl (Or.inl (Or.inr ⟨_, present, by simp [Held.token?, unused]⟩))
  reply_registered := by
    rintro ⟨message, call⟩ present answer rfl
    apply sound.entry_of_token (.replied (answer.isSuccess, answer.response)) rfl
    simp only [tokens, Multiset.mem_add, Multiset.mem_coe, List.mem_filterMap]
    exact Or.inl (Or.inr ⟨_, present, rfl⟩)

/-- At rest, when nothing is in flight and every reply callback has been used, no
callback is registered and every call's callback has fired, once. -/
theorem at_rest (sound : direction.Sound) (settled : direction.inProgress = [])
    (noRequests : direction.requests = []) (allUsed : ∀ held ∈ direction.held, held.callback.fired)
    (noReplies : direction.replies = []) :
    (∀ callbackId, direction.asker.callbacks callbackId = none) ∧
      (direction.fired.map Fired.call).Perm (List.range direction.issued) := by
  have conserved := sound.reachable.conserved
  have noHeld : direction.held.filterMap (Held.token? (V := V)) = [] := by
    rw [List.filterMap_eq_nil_iff]
    intro held present
    rw [Held.token?, if_pos (allUsed held present)]
  have onlyFired : direction.exchange.tokens =
      (direction.fired.map Fired.token : Multiset (CallToken V)) := by
    simp [exchange, tokens, settled, noRequests, noHeld, noReplies]
  constructor
  · intro callbackId
    refine conserved.table_eq_none_of_settled ?_ callbackId
    intro token present
    rw [onlyFired, Multiset.mem_coe, List.mem_map] at present
    rcases present with ⟨fired, _, rfl⟩
    rfl
  · have calls := conserved.calls_eq
    rw [onlyFired, Multiset.map_coe, List.map_map] at calls
    exact Multiset.coe_eq_coe.mp calls

end Sound

end Direction

end WebbitGwt.Rpc
