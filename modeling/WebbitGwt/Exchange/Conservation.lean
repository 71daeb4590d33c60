import WebbitGwt.Exchange.Core
import Mathlib.Data.Multiset.Filter

/-!
# Conservation of tokens

The invariant of an exchange.  Every call made so far has exactly one token, the
table holds exactly the calls whose token is outstanding, and the replies on
their way or already delivered are exactly those that were given.  Agreement of
the two parties, at-most-once firing and emptiness of the table at rest are read
off from it.
-/

namespace WebbitGwt.Exchange

universe u v

variable {K : Type u} {R : Type v}

/-- The conservation invariant of an exchange with key sequence `keyOf`. -/
structure Conserved (keyOf : Nat → K) (state : State K R) : Prop where
  /-- Every call has exactly one token. -/
  calls_eq : state.tokens.map Token.call = Multiset.range state.issued
  key_eq : ∀ token ∈ state.tokens, token.key = keyOf token.call
  keyOf_injective : ∀ first < state.issued, ∀ second < state.issued,
    keyOf first = keyOf second → first = second
  table_iff : ∀ key call, state.table key = some call ↔
    ∃ place : Place R, place.outstanding ∧ ⟨key, call, place⟩ ∈ state.tokens
  gave_iff : ∀ call reply, (call, reply) ∈ state.gave ↔
    ∃ token ∈ state.tokens, token.call = call ∧ token.place.reply? = some reply
  gave_nodup : (state.gave.map Prod.fst).Nodup

namespace Conserved

variable {keyOf : Nat → K} {state : State K R}

theorem initial : Conserved keyOf (initial : State K R) where
  calls_eq := rfl
  key_eq := by simp [Exchange.initial]
  keyOf_injective := by simp [Exchange.initial]
  table_iff := by simp [Exchange.initial]
  gave_iff := by simp [Exchange.initial]
  gave_nodup := by simp [Exchange.initial]

/-- Tokens name calls that have been made. -/
theorem call_lt (conserved : Conserved keyOf state) {token : Token K R}
    (present : token ∈ state.tokens) : token.call < state.issued := by
  have inRange : token.call ∈ Multiset.range state.issued := by
    rw [← conserved.calls_eq]
    exact Multiset.mem_map_of_mem Token.call present
  exact Multiset.mem_range.mp inRange

/-- A call has one token only. -/
theorem token_unique (conserved : Conserved keyOf state) {first second : Token K R}
    (firstMem : first ∈ state.tokens) (secondMem : second ∈ state.tokens)
    (sameCall : first.call = second.call) : first = second := by
  have nodup : (state.tokens.map Token.call).Nodup := by
    rw [conserved.calls_eq]
    exact Multiset.nodup_range state.issued
  exact Multiset.inj_on_of_nodup_map nodup first firstMem second secondMem sameCall

/-- A key stands for one call only. -/
theorem token_unique_of_key (conserved : Conserved keyOf state) {first second : Token K R}
    (firstMem : first ∈ state.tokens) (secondMem : second ∈ state.tokens)
    (sameKey : first.key = second.key) : first = second := by
  apply conserved.token_unique firstMem secondMem
  apply conserved.keyOf_injective _ (conserved.call_lt firstMem) _ (conserved.call_lt secondMem)
  rw [← conserved.key_eq first firstMem, ← conserved.key_eq second secondMem, sameKey]

/-- The token at the head of a splitting is not among the others. -/
theorem call_ne_of_mem_rest (conserved : Conserved keyOf state) {token other : Token K R}
    {rest : Multiset (Token K R)} (found : state.tokens = token ::ₘ rest)
    (otherMem : other ∈ rest) : other.call ≠ token.call := by
  have nodup : (state.tokens.map Token.call).Nodup := by
    rw [conserved.calls_eq]
    exact Multiset.nodup_range state.issued
  rw [found, Multiset.map_cons, Multiset.nodup_cons] at nodup
  intro sameCall
  exact nodup.1 (sameCall ▸ Multiset.mem_map_of_mem Token.call otherMem)

/-- Likewise for keys. -/
theorem key_ne_of_mem_rest (conserved : Conserved keyOf state) {token other : Token K R}
    {rest : Multiset (Token K R)} (found : state.tokens = token ::ₘ rest)
    (otherMem : other ∈ rest) : other.key ≠ token.key := by
  intro sameKey
  have same : other = token := conserved.token_unique_of_key
    (by rw [found]; exact Multiset.mem_cons_of_mem otherMem)
    (by rw [found]; exact Multiset.mem_cons_self token rest) sameKey
  exact conserved.call_ne_of_mem_rest found otherMem (congrArg Token.call same)

theorem tokens_nodup (conserved : Conserved keyOf state) : state.tokens.Nodup := by
  apply Multiset.Nodup.of_map Token.call
  rw [conserved.calls_eq]
  exact Multiset.nodup_range state.issued

/-- The outstanding tokens with a given key number one if the table has an entry
under the key, and none otherwise. -/
theorem countP_outstanding [DecidableEq K] (conserved : Conserved keyOf state) (key : K) :
    (state.tokens.countP fun token => token.place.outstanding ∧ token.key = key) =
      if (state.table key).isSome then 1 else 0 := by
  rw [Multiset.countP_eq_card_filter]
  cases entry : state.table key with
  | none =>
      have empty : (state.tokens.filter fun token =>
          token.place.outstanding ∧ token.key = key) = 0 := by
        apply Multiset.eq_zero_of_forall_notMem
        rintro ⟨key', call, place⟩ mem
        rcases Multiset.mem_filter.mp mem with ⟨present, outstanding, rfl⟩
        have found := (conserved.table_iff _ _).mpr ⟨place, outstanding, present⟩
        rw [entry] at found
        cases found
      rw [empty]
      rfl
  | some call =>
      rcases (conserved.table_iff key call).mp entry with ⟨place, outstanding, present⟩
      have single : (state.tokens.filter fun token =>
          token.place.outstanding ∧ token.key = key) = {⟨key, call, place⟩} := by
        apply (Multiset.Nodup.ext (conserved.tokens_nodup.filter _)
          (Multiset.nodup_singleton _)).mpr
        intro token
        rw [Multiset.mem_filter, Multiset.mem_singleton]
        constructor
        · rintro ⟨tokenMem, _, sameKey⟩
          exact conserved.token_unique_of_key tokenMem present sameKey
        · rintro rfl
          exact ⟨present, outstanding, rfl⟩
      rw [single]
      rfl

/-- An exchange at rest: without outstanding tokens the table is empty. -/
theorem table_eq_none_of_settled (conserved : Conserved keyOf state)
    (settled : ∀ token ∈ state.tokens, token.place.outstanding = false) (key : K) :
    state.table key = none := by
  cases entry : state.table key with
  | none => rfl
  | some call =>
      rcases (conserved.table_iff key call).mp entry with ⟨place, outstanding, present⟩
      have notOutstanding := settled _ present
      simp_all

/-- Moving a token to a new place keeps what does not depend on places. -/
theorem relocate (conserved : Conserved keyOf state) {key : K} {call : Nat}
    {old new : Place R} {rest : Multiset (Token K R)} {table : K → Option Nat}
    {gave : List (Nat × R)} (found : state.tokens = ⟨key, call, old⟩ ::ₘ rest)
    (table_iff : ∀ key' call', table key' = some call' ↔
      ∃ place : Place R, place.outstanding ∧ ⟨key', call', place⟩ ∈ ⟨key, call, new⟩ ::ₘ rest)
    (gave_iff : ∀ call' reply, (call', reply) ∈ gave ↔
      ∃ token ∈ ⟨key, call, new⟩ ::ₘ rest, token.call = call' ∧ token.place.reply? = some reply)
    (gave_nodup : (gave.map Prod.fst).Nodup) :
    Conserved keyOf
      { state with table := table, tokens := ⟨key, call, new⟩ ::ₘ rest, gave := gave } where
  calls_eq := by
    rw [← conserved.calls_eq, found]
    simp
  key_eq := by
    intro token present
    rcases Multiset.mem_cons.mp present with rfl | present
    · exact conserved.key_eq ⟨key, call, old⟩ (by rw [found]; exact Multiset.mem_cons_self _ _)
    · exact conserved.key_eq token (by rw [found]; exact Multiset.mem_cons_of_mem present)
  keyOf_injective := conserved.keyOf_injective
  table_iff := table_iff
  gave_iff := gave_iff
  gave_nodup := gave_nodup

/-- Without its reply changing, a move leaves the given replies as they are. -/
theorem move (conserved : Conserved keyOf state) {key : K} {call : Nat}
    {old new : Place R} {rest : Multiset (Token K R)} {table : K → Option Nat}
    (found : state.tokens = ⟨key, call, old⟩ ::ₘ rest) (sameReply : new.reply? = old.reply?)
    (table_iff : ∀ key' call', table key' = some call' ↔
      ∃ place : Place R, place.outstanding ∧ ⟨key', call', place⟩ ∈ ⟨key, call, new⟩ ::ₘ rest) :
    Conserved keyOf
      { state with table := table, tokens := ⟨key, call, new⟩ ::ₘ rest } := by
  apply conserved.relocate found table_iff
  · intro call' reply
    rw [conserved.gave_iff, found]
    simp [sameReply]
  · exact conserved.gave_nodup

/-- Between two outstanding places, it leaves the table as it is. -/
theorem table_iff_move (conserved : Conserved keyOf state) {key : K} {call : Nat}
    {old new : Place R} {rest : Multiset (Token K R)}
    (found : state.tokens = ⟨key, call, old⟩ ::ₘ rest) (oldOut : old.outstanding)
    (newOut : new.outstanding) (key' : K) (call' : Nat) :
    state.table key' = some call' ↔
      ∃ place : Place R, place.outstanding ∧ ⟨key', call', place⟩ ∈ ⟨key, call, new⟩ ::ₘ rest := by
  rw [conserved.table_iff, found]
  constructor
  · rintro ⟨place, outstanding, mem⟩
    rcases Multiset.mem_cons.mp mem with same | mem
    · cases same
      exact ⟨new, newOut, Multiset.mem_cons_self _ _⟩
    · exact ⟨place, outstanding, Multiset.mem_cons_of_mem mem⟩
  · rintro ⟨place, outstanding, mem⟩
    rcases Multiset.mem_cons.mp mem with same | mem
    · cases same
      exact ⟨old, oldOut, Multiset.mem_cons_self _ _⟩
    · exact ⟨place, outstanding, Multiset.mem_cons_of_mem mem⟩

theorem move_outstanding (conserved : Conserved keyOf state) {key : K} {call : Nat}
    {old new : Place R} {rest : Multiset (Token K R)}
    (found : state.tokens = ⟨key, call, old⟩ ::ₘ rest) (sameReply : new.reply? = old.reply?)
    (oldOut : old.outstanding) (newOut : new.outstanding) :
    Conserved keyOf { state with tokens := ⟨key, call, new⟩ ::ₘ rest } :=
  conserved.move found sameReply (conserved.table_iff_move found oldOut newOut)

theorem take (conserved : Conserved keyOf state)
    (fresh : ∀ call < state.issued, keyOf call ≠ keyOf state.issued) :
    Conserved keyOf
      { state with
        tokens := ⟨keyOf state.issued, state.issued, .taken⟩ ::ₘ state.tokens
        issued := state.issued + 1 } where
  calls_eq := by
    rw [Multiset.map_cons, conserved.calls_eq, Multiset.range_succ]
  key_eq := by
    intro token present
    rcases Multiset.mem_cons.mp present with rfl | present
    · rfl
    · exact conserved.key_eq token present
  keyOf_injective := by
    intro first firstLt second secondLt sameKey
    rcases Nat.lt_succ_iff_lt_or_eq.mp firstLt with firstLt | rfl
    · rcases Nat.lt_succ_iff_lt_or_eq.mp secondLt with secondLt | rfl
      · exact conserved.keyOf_injective first firstLt second secondLt sameKey
      · exact absurd sameKey (fresh first firstLt)
    · rcases Nat.lt_succ_iff_lt_or_eq.mp secondLt with secondLt | rfl
      · exact absurd sameKey.symm (fresh second secondLt)
      · rfl
  table_iff := by
    intro key call
    rw [conserved.table_iff]
    constructor
    · rintro ⟨place, outstanding, mem⟩
      exact ⟨place, outstanding, Multiset.mem_cons_of_mem mem⟩
    · rintro ⟨place, outstanding, mem⟩
      rcases Multiset.mem_cons.mp mem with same | mem
      · cases same
        cases outstanding
      · exact ⟨place, outstanding, mem⟩
  gave_iff := by
    intro call reply
    rw [conserved.gave_iff]
    simp [Place.reply?]
  gave_nodup := conserved.gave_nodup

/-- The reply of an outstanding call finds the entry of that very call. -/
theorem table_eq_some (conserved : Conserved keyOf state) {key : K} {call : Nat}
    {place : Place R} {rest : Multiset (Token K R)}
    (found : state.tokens = ⟨key, call, place⟩ ::ₘ rest) (outstanding : place.outstanding) :
    state.table key = some call :=
  (conserved.table_iff key call).mpr
    ⟨place, outstanding, by rw [found]; exact Multiset.mem_cons_self _ _⟩

variable [DecidableEq K]

theorem register (conserved : Conserved keyOf state) {key : K} {call : Nat}
    {rest : Multiset (Token K R)} (found : state.tokens = ⟨key, call, .taken⟩ ::ₘ rest) :
    Conserved keyOf
      { state with
        table := Function.update state.table key (some call)
        tokens := ⟨key, call, .registered⟩ ::ₘ rest } := by
  refine conserved.move found rfl ?_
  intro key' call'
  by_cases sameKey : key' = key
  · subst key'
    rw [Function.update_self, Option.some.injEq]
    constructor
    · rintro rfl
      exact ⟨.registered, rfl, Multiset.mem_cons_self _ _⟩
    · rintro ⟨place, _, mem⟩
      rcases Multiset.mem_cons.mp mem with same | mem
      · cases same
        rfl
      · exact (conserved.key_ne_of_mem_rest found mem rfl).elim
  · rw [Function.update_of_ne sameKey, conserved.table_iff, found]
    simp [sameKey]

omit [DecidableEq K] in
theorem reply (conserved : Conserved keyOf state) {key : K} {call : Nat} {reply : R}
    {rest : Multiset (Token K R)} (found : state.tokens = ⟨key, call, .opened⟩ ::ₘ rest) :
    Conserved keyOf
      { state with
        tokens := ⟨key, call, .replied reply⟩ ::ₘ rest
        gave := (call, reply) :: state.gave } := by
  have opened : (⟨key, call, .opened⟩ : Token K R) ∈ state.tokens := by
    rw [found]
    exact Multiset.mem_cons_self _ _
  have notGiven : ∀ earlier, (call, earlier) ∉ state.gave := by
    intro earlier mem
    rcases (conserved.gave_iff _ _).mp mem with ⟨token, present, sameCall, replied⟩
    have same := conserved.token_unique present opened sameCall
    rw [same] at replied
    cases replied
  apply conserved.relocate found (conserved.table_iff_move found rfl rfl)
  · intro call' reply'
    rw [List.mem_cons, conserved.gave_iff, found]
    simp [Place.reply?, eq_comm]
  · rw [List.map_cons, List.nodup_cons]
    constructor
    · intro mem
      rcases List.mem_map.mp mem with ⟨⟨call', earlier⟩, given, rfl⟩
      exact notGiven earlier given
    · exact conserved.gave_nodup

theorem redeem (conserved : Conserved keyOf state) {key : K} {call : Nat} {reply : R}
    {rest : Multiset (Token K R)}
    (found : state.tokens = ⟨key, call, .replied reply⟩ ::ₘ rest) :
    Conserved keyOf (redeem state key reply rest) := by
  have entry := conserved.table_eq_some found rfl
  simp only [Exchange.redeem, entry]
  refine conserved.move found rfl ?_
  intro key' call'
  by_cases sameKey : key' = key
  · subst key'
    rw [Function.update_self]
    simp only [reduceCtorEq, false_iff, not_exists, not_and]
    intro place outstanding mem
    rcases Multiset.mem_cons.mp mem with same | mem
    · cases same
      cases outstanding
    · exact conserved.key_ne_of_mem_rest found mem rfl
  · rw [Function.update_of_ne sameKey, conserved.table_iff, found]
    simp [sameKey]

/-- Every step of an exchange conserves tokens. -/
theorem step {target : State K R} (conserved : Conserved keyOf state)
    (taken : Step keyOf state target) : Conserved keyOf target := by
  cases taken with
  | take fresh => exact conserved.take fresh
  | register found => exact conserved.register found
  | request found => exact conserved.move_outstanding found rfl rfl rfl
  | accept found => exact conserved.move_outstanding found rfl rfl rfl
  | reply reply found => exact conserved.reply found
  | redeem found => exact conserved.redeem found

end Conserved

variable {keyOf : Nat → K} {state : State K R}

variable [DecidableEq K]

/-- Tokens are conserved in every run. -/
theorem Reachable.conserved (reachable : Reachable keyOf state) : Conserved keyOf state := by
  induction reachable with
  | initial => exact Conserved.initial
  | step _ taken ih => exact ih.step taken

end WebbitGwt.Exchange
