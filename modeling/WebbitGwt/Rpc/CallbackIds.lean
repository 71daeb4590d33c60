import WebbitGwt.Rpc.ArbitraryPeer
import WebbitGwt.Rpc.FailedCall

/-!
# Callback ids in the long run

Ids are taken from a 32-bit counter that is never set back, and the counter does not
look at the callbacks map.  After 2^32 calls it starts again: one id on the way is zero,
and every other one may belong to a call that still waits for its answer.
-/

namespace WebbitGwt.Rpc

open WebbitGwt.Java
open WebbitGwt.Transition

universe u

variable {V : Type u}

namespace Endpoint

variable {endpoint : Endpoint V} {log : Log endpoint}

/-- The id that the next call gets says that there is a callback, and is not in use. -/
structure NextIdUsable (log : Log endpoint) : Prop where
  nonzero : (endpoint.table log.state).nextCallbackId ≠ 0
  unused : (endpoint.table log.state).containsKey (endpoint.table log.state).nextCallbackId = false

/-- The next call is none whose id would be zero, and all calls of the same id before it
have been answered. -/
structure AnsweredInTime (log : Log endpoint) : Prop where
  nonzero : (log.issued.length + 1) % 2 ^ 32 ≠ 0
  answered : ∀ call < log.issued.length, call % 2 ^ 32 = log.issued.length % 2 ^ 32 →
    call ∈ log.fired

/-- Before the counter has gone all the way round, every call is in time. -/
theorem AnsweredInTime.of_few (few : log.issued.length + 1 < 2 ^ 32) : AnsweredInTime log where
  nonzero := by omega
  answered := by
    intro call callLt same
    omega

/-- Calls are made in time. -/
def InTime (log : Log endpoint) : Event endpoint → Prop
  | .call _ => AnsweredInTime log
  | .receive _ | .finish _ => True

/-- No id that was given is zero, and no callback that waits for an answer has been
overwritten. -/
structure IdsKept (log : Log endpoint) : Prop where
  nonzero : ∀ callbackId ∈ log.issued, callbackId ≠ 0
  kept : ∀ call < log.issued.length, call ∉ log.fired →
    (endpoint.table log.state).callbacks (CallbackTable.idOf call) = some call

/-- An id is in use exactly while a call of that id has not been answered. -/
theorem Waiting.unused_iff (waiting : Waiting log) (callbackId : JInt) :
    (endpoint.table log.state).containsKey callbackId = false ↔
      ∀ call < log.issued.length, CallbackTable.idOf call = callbackId → call ∈ log.fired := by
  rw [CallbackTable.containsKey, Option.isSome_eq_false_iff, Option.isNone_iff_eq_none]
  constructor
  · intro unused call callLt sameId
    by_contra unfired
    have entry := (waiting.entry_iff _ call).mpr ⟨callLt, sameId, unfired⟩
    rw [unused] at entry
    cases entry
  · intro allFired
    cases entry : (endpoint.table log.state).callbacks callbackId with
    | none => rfl
    | some call =>
        rcases (waiting.entry_iff _ call).mp entry with ⟨callLt, sameId, unfired⟩
        exact absurd (allFired call callLt sameId) unfired

theorem Waiting.nextIdUsable_iff (waiting : Waiting log) :
    NextIdUsable log ↔ AnsweredInTime log := by
  have nonzero_iff : (endpoint.table log.state).nextCallbackId ≠ 0 ↔
      (log.issued.length + 1) % 2 ^ 32 ≠ 0 := by
    rw [waiting.counter, ne_eq, CallbackTable.idOf_eq_zero_iff]
  have answered_iff := waiting.unused_iff (endpoint.table log.state).nextCallbackId
  simp only [waiting.counter, CallbackTable.idOf_eq_iff] at answered_iff
  constructor
  · rintro ⟨nonzero, unused⟩
    rw [waiting.counter] at unused
    exact ⟨nonzero_iff.mp nonzero, answered_iff.mp unused⟩
  · rintro ⟨nonzero, answered⟩
    refine ⟨nonzero_iff.mpr nonzero, ?_⟩
    rw [waiting.counter]
    exact answered_iff.mpr answered

/-- The invariant of runs in time. -/
structure Outstanding (log : Log endpoint) : Prop extends Waiting log where
  nonzero : ∀ callbackId ∈ log.issued, callbackId ≠ 0

namespace Outstanding

theorem init : Outstanding (machine endpoint).init :=
  ⟨Waiting.init, by simp [machine]⟩

theorem idsKept (outstanding : Outstanding log) : IdsKept log where
  nonzero := outstanding.nonzero
  kept := fun call callLt unfired =>
    (outstanding.entry_iff _ call).mpr ⟨callLt, rfl, unfired⟩

/-- A call in time takes the place of calls that have been answered, if of any. -/
theorem call (outstanding : Outstanding log) (inTime : AnsweredInTime log)
    (args : endpoint.Call) :
    Outstanding
      { log with
        state := endpoint.call log.state log.issued.length args
        issued := (endpoint.table log.state).takeId.1 :: log.issued } := by
  constructor
  · apply outstanding.toWaiting.call
    intro earlier earlierLt sameId
    exact inTime.answered earlier earlierLt ((CallbackTable.idOf_eq_iff _ _).mp sameId)
  · have nonzero := (outstanding.nextIdUsable_iff.mpr inTime).nonzero
    rintro callbackId (_ | ⟨_, earlier⟩)
    · exact nonzero
    · exact outstanding.nonzero callbackId earlier

/-- Runs in time, of any length. -/
theorem of_reachableBy (reachable : (machine endpoint).ReachableBy InTime log) :
    Outstanding log := by
  refine reachable.invariant init ?_
  intro source target event permitted step outstanding
  rcases machine_cases step with ⟨args, rfl, rfl⟩ | ⟨message, rfl, _, rfl⟩ |
    ⟨throws, callback, outer, rfl, _, rfl⟩
  · exact outstanding.call permitted args
  · exact ⟨outstanding.toWaiting.receive message, outstanding.nonzero⟩
  · exact ⟨⟨outstanding.counter, outstanding.entry_iff, outstanding.fired_lt⟩,
      outstanding.nonzero⟩

end Outstanding

/-- A server endpoint has only given usable ids, and has overwritten no callback that
waits, as long as every call was made in time; and then the next id is usable if and
only if the next call is in time, too. -/
theorem callback_ids_usable {W : Type u} (encodeResponse : ClientMessage V → Except String W)
    (methods : List Method) (log : Log (rpcEndpoint encodeResponse methods))
    (reachable : (machine (rpcEndpoint encodeResponse methods)).ReachableBy InTime log) :
    IdsKept log ∧ (NextIdUsable log ↔ AnsweredInTime log) :=
  have outstanding := Outstanding.of_reachableBy reachable
  ⟨outstanding.idsKept, outstanding.nextIdUsable_iff⟩

/-- So a run with fewer calls is in time, whatever is answered in it. -/
theorem reachableBy_of_few (reachable : (machine endpoint).Reachable log)
    (few : log.issued.length < 2 ^ 32) : (machine endpoint).ReachableBy InTime log := by
  refine reachable.invariant_below .init (fun step within => (issued_le step).trans_lt within) ?_ few
  intro source target event within step before
  refine before.step ?_ step
  rcases machine_cases step with ⟨args, rfl, rfl⟩ | ⟨message, rfl, _⟩ | ⟨throws, _, _, rfl, _⟩
  · exact .of_few within
  · trivial
  · trivial

/-- A server object without public methods, and a codec that takes everything. -/
def asking : Endpoint Nat :=
  rpcEndpoint (W := Nat) (fun _ => .ok 0) []

/-- The arguments of a call of `ask`. -/
def askArgs : asking.Call :=
  (⟨askMethod, by decide, by decide⟩, [7])

/-- Two calls of `ask`, of which the second is answered, and a third one. -/
def asksThrice : List (Event asking) :=
  [.call askArgs, .call askArgs, .receive (.callback ⟨2, 42, true⟩), .finish false, .call askArgs]

/-- The first and the third callback wait, each under its own id. -/
theorem callback_ids_usable_ask :
    ∃ log, (machine asking).runFrom (machine asking).init asksThrice = some log ∧
      log.issued = [3, 2, 1] ∧ log.fired = [1] ∧
      (asking.table log.state).callbacks 1 = some 0 ∧
      (asking.table log.state).callbacks 2 = none ∧
      (asking.table log.state).callbacks 3 = some 2 ∧
      IdsKept log ∧ (NextIdUsable log ↔ AnsweredInTime log) := by
  refine ⟨_, rfl, rfl, rfl, rfl, rfl, rfl, ?_⟩
  apply callback_ids_usable
  exact reachableBy_of_few (Machine.reachable_of_run asksThrice rfl) (by decide)

/-- As long as the counter has not gone all the way round, all callbacks can wait, each
under an id of its own. -/
theorem all_waiting_reachable {endpoint : Endpoint V} (args : endpoint.Call) (calls : Nat)
    (within : calls ≤ 2 ^ 32) :
    ∃ log, (machine endpoint).Reachable log ∧ log.issued.length = calls ∧
      (endpoint.table log.state).nextCallbackId = CallbackTable.idOf calls ∧
      ∀ call < calls,
        (endpoint.table log.state).callbacks (CallbackTable.idOf call) = some call := by
  induction calls with
  | zero =>
      refine ⟨_, .init, rfl, ?_, fun call callLt => absurd callLt (Nat.not_lt_zero call)⟩
      simp [machine, endpoint.table_start, CallbackTable.new]
  | succ calls ih =>
      rcases ih (Nat.le_of_succ_le within) with ⟨log, reachable, length, counter, waiting⟩
      have step : (machine endpoint).next log (.call args) = some
          { log with
            state := endpoint.call log.state log.issued.length args
            issued := (endpoint.table log.state).takeId.1 :: log.issued } := rfl
      refine ⟨_, reachable.step step, congrArg Nat.succ length, ?_, ?_⟩
      · rw [endpoint.table_call, CallbackTable.register_snd_nextCallbackId, counter]
        exact CallbackTable.idOf_add_one calls
      · intro call callLt
        rw [endpoint.table_call, CallbackTable.register_snd_callbacks, counter, length]
        rcases Nat.lt_succ_iff_lt_or_eq.mp callLt with earlier | rfl
        · have differ : CallbackTable.idOf call ≠ CallbackTable.idOf calls := by
            rw [ne_eq, CallbackTable.idOf_eq_iff]
            omega
          rw [Function.update_of_ne differ]
          exact waiting call earlier
        · exact Function.update_self ..

/-- With a client that never answers, the id after 2^32 - 1 calls is zero, and the id after
2^32 calls is that of the first callback, which is still waiting. -/
theorem callback_ids_run_out :
    (∃ log, (machine asking).Reachable log ∧ log.issued.length = 2 ^ 32 - 1 ∧
      (asking.table log.state).nextCallbackId = 0) ∧
    (∃ log, (machine asking).Reachable log ∧ log.issued.length = 2 ^ 32 ∧
      (asking.table log.state).nextCallbackId = 1 ∧
      (asking.table log.state).callbacks 1 = some 0) := by
  constructor
  · rcases all_waiting_reachable askArgs (2 ^ 32 - 1) (Nat.sub_le _ _) with
      ⟨log, reachable, length, counter, _⟩
    exact ⟨log, reachable, length, counter⟩
  · rcases all_waiting_reachable askArgs (2 ^ 32) (Nat.le_refl _) with
      ⟨log, reachable, length, counter, waiting⟩
    exact ⟨log, reachable, length, counter, waiting 0 (Nat.two_pow_pos 32)⟩

end Endpoint

end WebbitGwt.Rpc
