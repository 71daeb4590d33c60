import Mathlib.Order.Basic

/-!
# Executable transition systems

A machine is a start state together with an option-valued step: an action that
is not enabled in a state has no successor.  Safety properties are proved by
induction over reachable states; the rules below package that induction, also
for properties that are only claimed below a bound on some growing quantity.
-/

namespace WebbitGwt.Transition

universe u v w

/-- A start state and a partial step for each action. -/
structure Machine (σ : Type u) (α : Type v) where
  init : σ
  next : σ → α → Option σ

namespace Machine

variable {σ : Type u} {α : Type v} {machine : Machine σ α}

/-- Execute a list of actions, failing at the first one that is not enabled. -/
def runFrom (machine : Machine σ α) : σ → List α → Option σ
  | state, [] => some state
  | state, action :: rest =>
      (machine.next state action).bind fun next => machine.runFrom next rest

/-- The states some run of the machine ends in. -/
inductive Reachable (machine : Machine σ α) : σ → Prop
  | init : Reachable machine machine.init
  | step {source target : σ} {action : α} :
      Reachable machine source → machine.next source action = some target →
      Reachable machine target

/-- Running from a reachable state stays among the reachable states. -/
theorem Reachable.runFrom {source target : σ} {actions : List α}
    (reachable : machine.Reachable source)
    (run : machine.runFrom source actions = some target) :
    machine.Reachable target := by
  induction actions generalizing source with
  | nil =>
      have same : source = target := Option.some.inj run
      exact same ▸ reachable
  | cons action rest ih =>
      rcases Option.bind_eq_some_iff.mp run with ⟨middle, first, last⟩
      exact ih (reachable.step first) last

/-- A complete run from the start state witnesses reachability. -/
theorem reachable_of_run {target : σ} (actions : List α)
    (run : machine.runFrom machine.init actions = some target) :
    machine.Reachable target :=
  Reachable.init.runFrom run

/-- An initialized property that every step from a reachable state preserves
holds of every reachable state. -/
theorem Reachable.invariant {P : σ → Prop} (initial : P machine.init)
    (preserved : ∀ {source target : σ} {action : α}, machine.Reachable source →
      machine.next source action = some target → P source → P target)
    {state : σ} (reachable : machine.Reachable state) : P state := by
  induction reachable with
  | init => exact initial
  | step before enabled ih => exact preserved before enabled ih

/-- Invariants that hold only as long as a bound does: the bound is a property
that no step can re-establish once it is lost, and it is assumed of the state
that the conclusion is about. -/
theorem Reachable.invariant_below {P bound : σ → Prop} (initial : P machine.init)
    (monotone : ∀ {source target : σ} {action : α},
      machine.next source action = some target → bound target → bound source)
    (preserved : ∀ {source target : σ} {action : α}, bound target →
      machine.next source action = some target → P source → P target)
    {state : σ} (reachable : machine.Reachable state) (within : bound state) : P state := by
  induction reachable with
  | init => exact initial
  | step before enabled ih =>
      exact preserved within enabled (ih (monotone enabled within))

/-- A property that the allowed actions preserve is kept by a run of allowed actions. -/
theorem runFrom_invariant {P : σ → Prop} {allowed : α → Prop}
    (preserved : ∀ {source target : σ} {action : α}, allowed action →
      machine.next source action = some target → P source → P target)
    {source target : σ} {actions : List α} (run : machine.runFrom source actions = some target)
    (allAllowed : ∀ action ∈ actions, allowed action) (start : P source) : P target := by
  induction actions generalizing source with
  | nil =>
      have same : source = target := Option.some.inj run
      exact same ▸ start
  | cons action rest ih =>
      rcases Option.bind_eq_some_iff.mp run with ⟨middle, first, last⟩
      exact ih last (fun later present => allAllowed later (List.mem_cons_of_mem _ present))
        (preserved (allAllowed action List.mem_cons_self) first start)

/-- The states that runs end in whose actions are all allowed where they are taken. -/
inductive ReachableBy (machine : Machine σ α) (allowed : σ → α → Prop) : σ → Prop
  | init : ReachableBy machine allowed machine.init
  | step {source target : σ} {action : α} :
      ReachableBy machine allowed source → allowed source action →
      machine.next source action = some target → ReachableBy machine allowed target

/-- A property that allowed actions preserve holds of every state they lead to. -/
theorem ReachableBy.invariant {allowed : σ → α → Prop} {P : σ → Prop} (initial : P machine.init)
    (preserved : ∀ {source target : σ} {action : α}, allowed source action →
      machine.next source action = some target → P source → P target)
    {state : σ} (reachable : machine.ReachableBy allowed state) : P state := by
  induction reachable with
  | init => exact initial
  | step before permitted enabled ih => exact preserved permitted enabled ih

/-- If a second machine can match every allowed step and stay related, then every state
that allowed actions lead to is related to one that the second machine can reach. -/
theorem ReachableBy.simulated {τ : Type w} {β : Type v} {other : Machine τ β}
    {allowed : σ → α → Prop} {related : σ → τ → Prop} (initial : related machine.init other.init)
    (matched : ∀ {source target : σ} {action : α} {state : τ}, allowed source action →
      machine.next source action = some target → related source state →
      ∃ matching next, other.next state matching = some next ∧ related target next)
    {state : σ} (reachable : machine.ReachableBy allowed state) :
    ∃ partner, other.Reachable partner ∧ related state partner := by
  induction reachable with
  | init => exact ⟨other.init, .init, initial⟩
  | step before permitted enabled ih =>
      rcases ih with ⟨source, reached, isRelated⟩
      rcases matched permitted enabled isRelated with ⟨matching, next, stepped, relatedNext⟩
      exact ⟨next, reached.step stepped, relatedNext⟩

end Machine

end WebbitGwt.Transition
