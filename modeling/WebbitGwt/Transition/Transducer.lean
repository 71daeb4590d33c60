import Mathlib.Data.List.Infix

/-!
# Machines that read and write

A machine reads letter after letter and writes letters at each.  It may refuse one, with
a reason, and in a final state it refuses them all, so of two inputs one of which starts with the other
at most one is accepted.

A machine can also be run piece by piece, with room for so many letters of output at a
time.  What does not fit is held back.  Such a run reads and writes what the machine does
on the whole input, as far as it comes.
-/

namespace WebbitGwt.Transition

universe u v w x

/-- A machine with its steps and final states. -/
structure Transducer (α : Type u) (β : Type v) (ε : Type x) where
  State : Type w
  start : State
  step : State → α → Except ε (State × List β)
  final : State → Bool
  step_final : ∀ state letter, final state = true → ∃ reason, step state letter = .error reason

namespace Transducer

variable {α : Type u} {β : Type v} {ε : Type x} (machine : Transducer.{u, v, w, x} α β ε)

/-- What a machine does on an input. -/
def drive (state : machine.State) : List α → Except ε (machine.State × List β)
  | [] => .ok (state, [])
  | letter :: letters =>
      match machine.step state letter with
      | .error reason => .error reason
      | .ok (middle, first) =>
          match drive middle letters with
          | .error reason => .error reason
          | .ok (last, second) => .ok (last, first ++ second)

/-- A machine accepts an input, and writes so much, if it comes to a final state. -/
def Accepts (input : List α) (output : List β) : Prop :=
  ∃ state, machine.drive machine.start input = .ok (state, output) ∧
    machine.final state = true

variable {machine}

theorem drive_cons {state middle last : machine.State} {letter : α} {letters : List α}
    {first second : List β} (step : machine.step state letter = .ok (middle, first))
    (drives : machine.drive middle letters = .ok (last, second)) :
    machine.drive state (letter :: letters) = .ok (last, first ++ second) := by
  simp only [drive, step, drives]

theorem drive_cons_eq_ok {state last : machine.State} {letter : α} {letters : List α}
    {output : List β} (drives : machine.drive state (letter :: letters) = .ok (last, output)) :
    ∃ middle first second, machine.step state letter = .ok (middle, first) ∧
      machine.drive middle letters = .ok (last, second) ∧ output = first ++ second := by
  rw [drive] at drives
  cases step : machine.step state letter with
  | error reason =>
      rw [step] at drives
      cases drives
  | ok next =>
      rcases next with ⟨middle, first⟩
      rw [step] at drives
      cases others : machine.drive middle letters with
      | error reason =>
          simp only [others] at drives
          cases drives
      | ok rest =>
          rcases rest with ⟨after, second⟩
          simp only [others] at drives
          cases drives
          exact ⟨middle, first, second, rfl, others, rfl⟩

/-- An input can be given in two pieces. -/
theorem drive_append {state middle last : machine.State} {first second : List α}
    {before after : List β} (drivesFirst : machine.drive state first = .ok (middle, before))
    (drivesSecond : machine.drive middle second = .ok (last, after)) :
    machine.drive state (first ++ second) = .ok (last, before ++ after) := by
  induction first generalizing state before with
  | nil =>
      cases drivesFirst
      exact drivesSecond
  | cons letter letters ih =>
      rcases drive_cons_eq_ok drivesFirst with ⟨next, written, others, step, drives, rfl⟩
      rw [List.append_assoc]
      exact drive_cons step (ih drives)

/-- A machine that reads an input has read all of its beginnings. -/
theorem exists_drive_of_append {state last : machine.State} {first second : List α}
    {output : List β} (drives : machine.drive state (first ++ second) = .ok (last, output)) :
    ∃ middle before after, machine.drive state first = .ok (middle, before) ∧
      machine.drive middle second = .ok (last, after) ∧ output = before ++ after := by
  induction first generalizing state output with
  | nil => exact ⟨state, [], output, rfl, drives, rfl⟩
  | cons letter letters ih =>
      rcases drive_cons_eq_ok drives with ⟨next, written, others, step, rest, rfl⟩
      rcases ih rest with ⟨middle, before, after, drivesFirst, drivesSecond, rfl⟩
      exact ⟨middle, written ++ before, after, drive_cons step drivesFirst, drivesSecond,
        (List.append_assoc _ _ _).symm⟩

/-- Nothing is read in a final state. -/
theorem eq_nil_of_final {state last : machine.State} {letters : List α} {output : List β}
    (isFinal : machine.final state = true)
    (drives : machine.drive state letters = .ok (last, output)) : letters = [] := by
  cases letters with
  | nil => rfl
  | cons letter letters =>
      rcases drive_cons_eq_ok drives with ⟨next, written, others, step, _⟩
      rcases machine.step_final state letter isFinal with ⟨reason, refuses⟩
      rw [refuses] at step
      cases step

/-- What has been read so far belongs to an accepted input, if one of the two starts with
the other; and it is all of that input if and only if the state is final. -/
theorem Accepts.of_comparable {whole taken : List α} {all output : List β}
    {state : machine.State} (accepts : machine.Accepts whole all)
    (drives : machine.drive machine.start taken = .ok (state, output))
    (comparable : taken <+: whole ∨ whole <+: taken) :
    taken <+: whole ∧ output <+: all ∧
      (machine.final state = true → taken = whole ∧ output = all) ∧
      (whole <+: taken → machine.final state = true) := by
  rcases accepts with ⟨last, drivesWhole, isFinal⟩
  have isPrefix : taken <+: whole := by
    rcases comparable with isPrefix | ⟨more, rfl⟩
    · exact isPrefix
    · rcases exists_drive_of_append drives with ⟨middle, before, after, drivesFirst, rest, _⟩
      cases drivesWhole.symm.trans drivesFirst
      cases eq_nil_of_final isFinal rest
      rw [List.append_nil]
  rcases isPrefix with ⟨more, rfl⟩
  rcases exists_drive_of_append drivesWhole with ⟨middle, before, after, drivesFirst, rest, rfl⟩
  cases drives.symm.trans drivesFirst
  refine ⟨List.prefix_append _ _, List.prefix_append _ _, ?_, ?_⟩
  · intro ends
    cases eq_nil_of_final ends rest
    cases rest
    exact ⟨(List.append_nil _).symm, (List.append_nil _).symm⟩
  · intro longer
    have none : more = [] := by
      have length := longer.length_le
      rw [List.length_append] at length
      exact List.eq_nil_of_length_eq_zero (by omega)
    subst none
    cases rest
    exact isFinal

/-! ## Piece by piece -/

/-- Why a run stops: the output is full, the input is exhausted, the state is final, or
the machine refuses the next letter. -/
inductive Halt (ε : Type x)
  | full
  | exhausted
  | final
  | refused (reason : ε)

/-- A run: the state, the output that is held back, how many letters have been read, and
what has been written. -/
structure Run (machine : Transducer.{u, v, w, x} α β ε) where
  state : machine.State
  held : List β
  size : Nat
  written : List β
  halt : Halt ε

/-- Run a machine on the input there is, as long as there is room. -/
def run (machine : Transducer.{u, v, w, x} α β ε) (state : machine.State) (held : List β) :
    List α → Nat → Run machine
  | [], room =>
      if room < held.length then
        { state, held := held.drop room, size := 0, written := held.take room, halt := .full }
      else
        { state, held := [], size := 0, written := held
          halt := if machine.final state then .final else .exhausted }
  | letter :: letters, room =>
      if room < held.length then
        { state, held := held.drop room, size := 0, written := held.take room, halt := .full }
      else if machine.final state then
        { state, held := [], size := 0, written := held, halt := .final }
      else
        match machine.step state letter with
        | .error reason =>
            { state, held := [], size := 0, written := held, halt := .refused reason }
        | .ok (next, output) =>
            let rest := machine.run next output letters (room - held.length)
            { rest with size := rest.size + 1, written := held ++ rest.written }

/-- What a run says about the machine. -/
structure Runs (state : machine.State) (held : List β) (input : List α) (room : Nat)
    (result : Run machine) : Prop where
  fits : result.size ≤ input.length ∧ result.written.length ≤ room
  drives : ∃ output,
    machine.drive state (input.take result.size) = .ok (result.state, output) ∧
      held ++ output = result.written ++ result.held
  halts : match result.halt with
    | .full => result.written.length = room
    | .exhausted =>
        result.size = input.length ∧ machine.final result.state = false ∧ result.held = []
    | .final => machine.final result.state = true ∧ result.held = []
    | .refused reason => machine.final result.state = false ∧ ∃ letter,
        input[result.size]? = some letter ∧ machine.step result.state letter = .error reason

theorem runs_full (state : machine.State) {held : List β} (input : List α) {room : Nat}
    (less : room < held.length) :
    Runs state held input room
      { state, held := held.drop room, size := 0, written := held.take room, halt := .full } where
  fits := ⟨Nat.zero_le _, (List.length_take_le _ _)⟩
  drives := ⟨[], rfl, by rw [List.append_nil, List.take_append_drop]⟩
  halts := List.length_take_of_le (Nat.le_of_lt less)

theorem runs (state : machine.State) (held : List β) (input : List α) (room : Nat) :
    Runs state held input room (machine.run state held input room) := by
  induction input generalizing state held room with
  | nil =>
      rw [run]
      by_cases less : room < held.length
      · rw [if_pos less]
        exact runs_full state [] less
      · rw [if_neg less]
        refine ⟨⟨Nat.le_refl _, Nat.le_of_not_lt less⟩, ⟨[], rfl, rfl⟩, ?_⟩
        by_cases isFinal : machine.final state = true
        · rw [if_pos isFinal]
          exact ⟨isFinal, rfl⟩
        · rw [if_neg isFinal]
          exact ⟨rfl, Bool.eq_false_iff.mpr isFinal, rfl⟩
  | cons letter letters ih =>
      rw [run]
      by_cases less : room < held.length
      · rw [if_pos less]
        exact runs_full state (letter :: letters) less
      · rw [if_neg less]
        have fits := Nat.le_of_not_lt less
        by_cases isFinal : machine.final state = true
        · rw [if_pos isFinal]
          exact ⟨⟨Nat.zero_le _, fits⟩, ⟨[], rfl, rfl⟩, isFinal, rfl⟩
        · rw [if_neg isFinal]
          cases step : machine.step state letter with
          | error reason =>
              exact ⟨⟨Nat.zero_le _, fits⟩, ⟨[], rfl, rfl⟩, Bool.eq_false_iff.mpr isFinal,
                letter, rfl, step⟩
          | ok after =>
              rcases after with ⟨next, output⟩
              rcases ih next output (room - held.length) with
                ⟨⟨size, length⟩, ⟨others, drives, written⟩, halts⟩
              dsimp only
              generalize machine.run next output letters (room - held.length) = rest at *
              refine ⟨⟨Nat.succ_le_succ size, ?_⟩, ⟨output ++ others, drive_cons step drives, ?_⟩, ?_⟩
              · rw [List.length_append]
                omega
              · rw [written, List.append_assoc]
              · rcases rest with ⟨last, still, count, fresh, halt⟩
                cases halt with
                | full =>
                    simp only [List.length_append] at halts ⊢
                    omega
                | exhausted => exact ⟨congrArg Nat.succ halts.1, halts.2⟩
                | final => exact halts
                | refused reason => exact halts

end Transducer

end WebbitGwt.Transition
