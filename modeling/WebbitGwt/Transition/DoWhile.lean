import Mathlib.Order.Basic

/-!
# Loops that test at their end

The body of a loop goes on to a next state or breaks out of the loop with a result of its
own.  A run has fuel for so many rounds.  A loop with a measure that decreases in every
round but the last one returns, and it does not matter how much fuel is left over.
-/

namespace WebbitGwt.Transition

universe u v

variable {σ : Type u} {ε : Type v}

/-- Do `body` while `continues` holds after it. -/
def doWhile (body : σ → Except ε σ) (continues : σ → Bool) : Nat → σ → Option (Except ε σ)
  | 0, _ => none
  | fuel + 1, state =>
      match body state with
      | .error result => some (.error result)
      | .ok next => if continues next then doWhile body continues fuel next else some (.ok next)

variable {body : σ → Except ε σ} {continues : σ → Bool}

theorem doWhile_of_break {state : σ} {result : ε} (breaks : body state = .error result)
    (fuel : Nat) : doWhile body continues (fuel + 1) state = some (.error result) := by
  rw [doWhile, breaks]

theorem doWhile_of_last {state next : σ} (goes : body state = .ok next)
    (last : continues next = false) (fuel : Nat) :
    doWhile body continues (fuel + 1) state = some (.ok next) := by
  simp only [doWhile, goes, last, Bool.false_eq_true, if_false]

theorem doWhile_of_continues {state next : σ} (goes : body state = .ok next)
    (more : continues next = true) (fuel : Nat) :
    doWhile body continues (fuel + 1) state = doWhile body continues fuel next := by
  simp only [doWhile, goes, more, if_true]

/-- What a round does to a loop with an invariant and a measure: it ends the loop with
what was promised, or goes on with less to do. -/
inductive Round (continues : σ → Bool) (invariant : σ → Prop) (measure : σ → Nat)
    (promised : Except ε σ → Prop) (state : σ) : Except ε σ → Prop
  | breaks {result : ε} (kept : promised (.error result)) :
      Round continues invariant measure promised state (.error result)
  | last {next : σ} (stops : continues next = false) (kept : promised (.ok next)) :
      Round continues invariant measure promised state (.ok next)
  | goes {next : σ} (more : continues next = true) (preserved : invariant next)
      (decreases : measure next < measure state) :
      Round continues invariant measure promised state (.ok next)

/-- The rule for loops: they return, and with what every round promises. -/
theorem doWhile_returns {invariant : σ → Prop} {measure : σ → Nat} {promised : Except ε σ → Prop}
    (round : ∀ state, invariant state →
      Round continues invariant measure promised state (body state))
    {state : σ} (initial : invariant state) :
    ∃ result, promised result ∧
      ∀ fuel, measure state < fuel → doWhile body continues fuel state = some result := by
  induction bound : measure state using Nat.strongRecOn generalizing state with
  | _ rounds ih =>
      subst bound
      have once := round state initial
      have enough (fuel : Nat) (less : measure state < fuel) : ∃ rest, fuel = rest + 1 :=
        Nat.exists_eq_succ_of_ne_zero (Nat.ne_zero_of_lt less)
      generalize goes : body state = outcome at once
      cases once with
      | breaks kept =>
          refine ⟨_, kept, ?_⟩
          intro fuel less
          rcases enough fuel less with ⟨rest, rfl⟩
          exact doWhile_of_break goes rest
      | last stops kept =>
          refine ⟨_, kept, ?_⟩
          intro fuel less
          rcases enough fuel less with ⟨rest, rfl⟩
          exact doWhile_of_last goes stops rest
      | goes more preserved decreases =>
          rcases ih _ decreases preserved rfl with ⟨result, kept, returns⟩
          refine ⟨result, kept, ?_⟩
          intro fuel less
          rcases enough fuel less with ⟨rest, rfl⟩
          rw [doWhile_of_continues goes more]
          exact returns rest (Nat.lt_of_lt_of_le decreases (Nat.le_of_lt_succ less))

/-- With enough fuel there is one result only. -/
theorem eq_of_returns {α : Type u} {run : Nat → Option α} {first second : α} {few many : Nat}
    (returnsFirst : ∀ fuel, few < fuel → run fuel = some first)
    (returnsSecond : ∀ fuel, many < fuel → run fuel = some second) : first = second := by
  have enough := returnsFirst (max few many + 1) (Nat.lt_succ_of_le (Nat.le_max_left _ _))
  have more := returnsSecond (max few many + 1) (Nat.lt_succ_of_le (Nat.le_max_right _ _))
  exact Option.some.inj (enough.symm.trans more)

end WebbitGwt.Transition
