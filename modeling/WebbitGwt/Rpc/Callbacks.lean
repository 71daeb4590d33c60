import WebbitGwt.Rpc.Message
import Mathlib.Logic.Function.Basic

/-!
# The callbacks an endpoint waits for

`ServerImpl`, `AbstractWorkerEndpointImpl` and `RpcEndpoint` each keep a counter
for callback ids, starting at one, and a map from id to callback.  The map is
read through `containsKey` and changed through `put` and `remove` only, so it is
a partial function here.
-/

namespace WebbitGwt.Rpc

open WebbitGwt.Java

universe u v

variable {Cb : Type u}

/-- The fields `nextCallbackId` and `callbacks`. -/
structure CallbackTable (Cb : Type u) where
  nextCallbackId : JInt
  callbacks : JInt → Option Cb

namespace CallbackTable

/-- The field initializers. -/
def new : CallbackTable Cb where
  nextCallbackId := 1
  callbacks := fun _ => none

/-- `nextCallbackId++`, or `getAndIncrement` on the atomic counter of the server. -/
def takeId (table : CallbackTable Cb) : JInt × CallbackTable Cb :=
  (table.nextCallbackId, { table with nextCallbackId := table.nextCallbackId + 1 })

/-- `callbacks.put(callbackId, callback)` -/
def put (table : CallbackTable Cb) (callbackId : JInt) (callback : Cb) : CallbackTable Cb :=
  { table with callbacks := Function.update table.callbacks callbackId (some callback) }

/-- `callbacks.containsKey(callbackId)` -/
def containsKey (table : CallbackTable Cb) (callbackId : JInt) : Bool :=
  (table.callbacks callbackId).isSome

/-- `callbacks.remove(callbackId)` -/
def remove (table : CallbackTable Cb) (callbackId : JInt) : CallbackTable Cb :=
  { table with callbacks := Function.update table.callbacks callbackId none }

/-- Take an id and register a callback under it at once. -/
def register (table : CallbackTable Cb) (callback : Cb) : JInt × CallbackTable Cb :=
  (table.takeId.1, table.takeId.2.put table.takeId.1 callback)

/-- The head of both `__sendMessage` methods: a null callback is not registered
and travels as id zero. -/
def registerNullable (table : CallbackTable Cb) : Option Cb → JInt × CallbackTable Cb
  | some callback => table.register callback
  | none => (0, table)

/-- The body of `__callback`: the callback to fire is removed before it is fired,
and an id without an entry is ignored. -/
def answer (table : CallbackTable Cb) (callbackId : JInt) : Option Cb × CallbackTable Cb :=
  if table.containsKey callbackId then
    (table.callbacks callbackId, table.remove callbackId)
  else
    (none, table)

@[simp]
theorem put_callbacks (table : CallbackTable Cb) (callbackId : JInt) (callback : Cb) :
    (table.put callbackId callback).callbacks =
      Function.update table.callbacks callbackId (some callback) := rfl

@[simp]
theorem put_nextCallbackId (table : CallbackTable Cb) (callbackId : JInt) (callback : Cb) :
    (table.put callbackId callback).nextCallbackId = table.nextCallbackId := rfl

@[simp]
theorem takeId_fst (table : CallbackTable Cb) : table.takeId.1 = table.nextCallbackId := rfl

@[simp]
theorem takeId_snd_callbacks (table : CallbackTable Cb) :
    table.takeId.2.callbacks = table.callbacks := rfl

@[simp]
theorem takeId_snd_nextCallbackId (table : CallbackTable Cb) :
    table.takeId.2.nextCallbackId = table.nextCallbackId + 1 := rfl

@[simp]
theorem register_fst (table : CallbackTable Cb) (callback : Cb) :
    (table.register callback).1 = table.nextCallbackId := rfl

@[simp]
theorem register_snd_callbacks (table : CallbackTable Cb) (callback : Cb) :
    (table.register callback).2.callbacks =
      Function.update table.callbacks table.nextCallbackId (some callback) := rfl

@[simp]
theorem register_snd_nextCallbackId (table : CallbackTable Cb) (callback : Cb) :
    (table.register callback).2.nextCallbackId = table.nextCallbackId + 1 := rfl

/-- An id with an entry: the entry is removed and its callback fired. -/
theorem answer_of_some {table : CallbackTable Cb} {callbackId : JInt} {callback : Cb}
    (entry : table.callbacks callbackId = some callback) :
    table.answer callbackId = (some callback, table.remove callbackId) := by
  simp [answer, containsKey, entry]

/-- An id without an entry: nothing happens. -/
theorem answer_of_none {table : CallbackTable Cb} {callbackId : JInt}
    (entry : table.callbacks callbackId = none) :
    table.answer callbackId = (none, table) := by
  simp [answer, containsKey, entry]

@[simp]
theorem answer_fst (table : CallbackTable Cb) (callbackId : JInt) :
    (table.answer callbackId).1 = table.callbacks callbackId := by
  cases entry : table.callbacks callbackId with
  | none => rw [answer_of_none entry]
  | some callback => rw [answer_of_some entry]

@[simp]
theorem answer_snd_callbacks (table : CallbackTable Cb) (callbackId : JInt) :
    (table.answer callbackId).2.callbacks =
      Function.update table.callbacks callbackId none := by
  cases entry : table.callbacks callbackId with
  | none => rw [answer_of_none entry, ← entry, Function.update_eq_self]
  | some callback => rw [answer_of_some entry, remove]

@[simp]
theorem answer_snd_nextCallbackId (table : CallbackTable Cb) (callbackId : JInt) :
    (table.answer callbackId).2.nextCallbackId = table.nextCallbackId := by
  unfold answer
  split <;> rfl

/-- The id of the call number `call` of an endpoint. -/
def idOf (call : Nat) : JInt :=
  BitVec.ofNat 32 (call + 1)

@[simp]
theorem idOf_zero : idOf 0 = 1 := rfl

theorem idOf_add_one (call : Nat) : idOf call + 1 = idOf (call + 1) := by
  simp only [idOf]
  bv_omega

/-- Ids repeat when the counter has gone all the way round. -/
theorem idOf_eq_iff (first second : Nat) :
    idOf first = idOf second ↔ first % 2 ^ 32 = second % 2 ^ 32 := by
  rw [idOf, idOf, BitVec.toNat_eq, BitVec.toNat_ofNat, BitVec.toNat_ofNat]
  omega

/-- And become zero once on the way. -/
theorem idOf_eq_zero_iff (call : Nat) : idOf call = 0 ↔ (call + 1) % 2 ^ 32 = 0 := by
  rw [idOf, BitVec.toNat_eq, BitVec.toNat_ofNat]
  exact Iff.rfl

/-- Ids do not repeat before the counter wraps around. -/
theorem idOf_injective_below {first second : Nat} (firstLt : first < 2 ^ 31)
    (secondLt : second < 2 ^ 31) (sameId : idOf first = idOf second) : first = second := by
  rw [idOf_eq_iff] at sameId
  omega

/-- Nor do they become zero. -/
theorem idOf_ne_zero {call : Nat} (callLt : call < 2 ^ 31) : idOf call ≠ 0 := by
  rw [ne_eq, idOf_eq_zero_iff]
  omega

end CallbackTable

/-- What an incoming object makes an endpoint in the browser do. -/
inductive Received (Cb : Type u) (V : Type v)
  | invoke (method : String) (params : List (Argument V))
  | fire (callback : Cb) (success : Bool) (response : V)
  | ignored

namespace CallbackTable

variable {V : Type v}

/-- The method `__callback` that `ServerImpl` and `AbstractWorkerEndpointImpl` both
have: what happens to the fields, and which callback is fired with what. -/
def receiveCallback (table : CallbackTable Cb) (callbackId : JInt) (response : V)
    (success : Bool) : CallbackTable Cb × Received Cb V :=
  match table.answer callbackId with
  | (some callback, answered) => (answered, .fire callback success response)
  | (none, unchanged) => (unchanged, .ignored)

/-- The part of `__onMessage` that both have, on the deserialized object, with the method
`__callback` that it calls.  Nothing happens to the fields after client code has run. -/
def receiveMessage (table : CallbackTable Cb)
    (callback : JInt → V → Bool → CallbackTable Cb × Received Cb V) :
    Message V → CallbackTable Cb × Received Cb V
  | .invocation call =>
      (table, .invoke call.method (call.arguments (call.parameters.getD [])))
  | .callback answer => callback answer.callbackId answer.response answer.isSuccess

theorem receiveCallback_of_some {table : CallbackTable Cb} {callbackId : JInt} {target : Cb}
    (entry : table.callbacks callbackId = some target) (response : V) (success : Bool) :
    table.receiveCallback callbackId response success =
      (table.remove callbackId, .fire target success response) := by
  rw [receiveCallback, answer_of_some entry]

theorem receiveCallback_of_none {table : CallbackTable Cb} {callbackId : JInt}
    (entry : table.callbacks callbackId = none) (response : V) (success : Bool) :
    table.receiveCallback callbackId response success = (table, .ignored) := by
  rw [receiveCallback, answer_of_none entry]

end CallbackTable

end WebbitGwt.Rpc
