import Mathlib.Data.Multiset.Range
import Mathlib.Logic.Function.Basic

/-!
# Request/reply exchanges with correlation keys

One party asks, the other answers.  The asking party stores what is waiting for
the answer in a table under a key, and the key travels with the request, stays
with the open request at the other party, and comes back with the reply.

A call is therefore represented by one token, which changes its place but is
never copied.  The table belongs to the asking party and is consulted by key
only; which call a key stands for is not part of what is sent.
-/

namespace WebbitGwt.Exchange

universe u v

variable {K : Type u} {R : Type v}

/-- The places a call passes through, in this order. -/
inductive Place (R : Type v)
  | taken
  | registered
  | requested
  | opened
  | replied (reply : R)
  | fired (reply : R)
  deriving DecidableEq

/-- The table holds an entry for the call exactly in these places. -/
def Place.outstanding : Place R → Bool
  | .taken | .fired _ => false
  | .registered | .requested | .opened | .replied _ => true

/-- The reply the call has received, if any. -/
def Place.reply? : Place R → Option R
  | .replied reply | .fired reply => some reply
  | .taken | .registered | .requested | .opened => none

/-- A call with the key it was given and the place it has reached.  Calls are
numbered in the order in which keys were taken. -/
structure Token (K : Type u) (R : Type v) where
  key : K
  call : Nat
  place : Place R
  deriving DecidableEq

/-- The asking party's table, every token, what the answering party gave for
which call, and the number of calls so far. -/
@[ext]
structure State (K : Type u) (R : Type v) where
  table : K → Option Nat
  tokens : Multiset (Token K R)
  gave : List (Nat × R)
  issued : Nat

/-- No call has been made. -/
def initial : State K R where
  table := fun _ => none
  tokens := 0
  gave := []
  issued := 0

variable [DecidableEq K]

/-- A reply arrives: only its key is looked at.  An entry under that key is
removed and its callback fired; without an entry the reply is dropped. -/
def redeem (state : State K R) (key : K) (reply : R) (rest : Multiset (Token K R)) :
    State K R :=
  match state.table key with
  | some call =>
      { state with
        table := Function.update state.table key none
        tokens := ⟨key, call, .fired reply⟩ ::ₘ rest }
  | none => { state with tokens := rest }

/-- One step of an exchange whose `n`-th call is given the key `keyOf n`. -/
inductive Step (keyOf : Nat → K) : State K R → State K R → Prop
  | take {state : State K R}
      (fresh : ∀ call < state.issued, keyOf call ≠ keyOf state.issued) :
      Step keyOf state
        { state with
          tokens := ⟨keyOf state.issued, state.issued, .taken⟩ ::ₘ state.tokens
          issued := state.issued + 1 }
  | register {state : State K R} {key : K} {call : Nat} {rest : Multiset (Token K R)}
      (found : state.tokens = ⟨key, call, .taken⟩ ::ₘ rest) :
      Step keyOf state
        { state with
          table := Function.update state.table key (some call)
          tokens := ⟨key, call, .registered⟩ ::ₘ rest }
  | request {state : State K R} {key : K} {call : Nat} {rest : Multiset (Token K R)}
      (found : state.tokens = ⟨key, call, .registered⟩ ::ₘ rest) :
      Step keyOf state { state with tokens := ⟨key, call, .requested⟩ ::ₘ rest }
  | accept {state : State K R} {key : K} {call : Nat} {rest : Multiset (Token K R)}
      (found : state.tokens = ⟨key, call, .requested⟩ ::ₘ rest) :
      Step keyOf state { state with tokens := ⟨key, call, .opened⟩ ::ₘ rest }
  | reply {state : State K R} {key : K} {call : Nat} {rest : Multiset (Token K R)}
      (reply : R) (found : state.tokens = ⟨key, call, .opened⟩ ::ₘ rest) :
      Step keyOf state
        { state with
          tokens := ⟨key, call, .replied reply⟩ ::ₘ rest
          gave := (call, reply) :: state.gave }
  | redeem {state : State K R} {key : K} {call : Nat} {reply : R}
      {rest : Multiset (Token K R)}
      (found : state.tokens = ⟨key, call, .replied reply⟩ ::ₘ rest) :
      Step keyOf state (redeem state key reply rest)

/-- The states an exchange can get into. -/
inductive Reachable (keyOf : Nat → K) : State K R → Prop
  | initial : Reachable keyOf initial
  | step {source target : State K R} :
      Reachable keyOf source → Step keyOf source target → Reachable keyOf target

/-- An asking party that is not interrupted takes a key, registers the call and
sends the request in one go. -/
theorem Reachable.ask {keyOf : Nat → K} {state : State K R} (reachable : Reachable keyOf state)
    (fresh : ∀ call < state.issued, keyOf call ≠ keyOf state.issued) :
    Reachable keyOf
      { state with
        table := Function.update state.table (keyOf state.issued) (some state.issued)
        tokens := ⟨keyOf state.issued, state.issued, .requested⟩ ::ₘ state.tokens
        issued := state.issued + 1 } := by
  have taken := reachable.step (.take fresh)
  have registered := taken.step (.register
    (show _ = ⟨keyOf state.issued, state.issued, .taken⟩ ::ₘ state.tokens from rfl))
  exact registered.step (.request rfl)

end WebbitGwt.Exchange
