import WebbitGwt.Stream.Growth

/-!
# How far a writer grows

A buffer starts with room for eight words, is doubled when it is full, and only then.
So its capacity is the least it can be: eight times the smallest power of two that the
words and their header fit into.
-/

namespace WebbitGwt.Stream

open WebbitGwt.Java
open WebbitGwt.Nio

variable {S : Type} {nativeOrder : ByteOrder} {writer next : StreamWriter S}
  {words spare : List Word}

/-- The capacity is the smallest that doubling from eight can reach for a number of
words. -/
def LeastCapacity (capacity count : Nat) : Prop :=
  ∃ doublings, capacity = 8 * 2 ^ doublings ∧ ∀ fewer, count ≤ 8 * 2 ^ fewer → doublings ≤ fewer

/-- One more word fits in, or the capacity has to be doubled for it. -/
theorem LeastCapacity.succ {capacity count : Nat} (least : LeastCapacity capacity count)
    (fits : count ≤ capacity) :
    LeastCapacity (if count = capacity then 2 * capacity else capacity) (count + 1) := by
  rcases least with ⟨doublings, rfl, least⟩
  by_cases full : count = 8 * 2 ^ doublings
  · rw [if_pos full]
    refine ⟨doublings + 1, by rw [Nat.pow_succ]; omega, ?_⟩
    intro fewer enough
    apply Nat.lt_of_not_le
    intro fewerLe
    have small := Nat.pow_le_pow_right Nat.two_pos fewerLe
    omega
  · rw [if_neg full]
    exact ⟨doublings, rfl, fun fewer enough => least fewer (by omega)⟩

/-- A buffer that has grown no further than it must is full exactly when the words and
their header make up eight times a power of two. -/
theorem LeastCapacity.full_iff {capacity count : Nat} (least : LeastCapacity capacity count)
    (fits : count ≤ capacity) : count = capacity ↔ ∃ doublings, count = 8 * 2 ^ doublings := by
  constructor
  · rintro rfl
    rcases least with ⟨doublings, count_eq, _⟩
    exact ⟨doublings, count_eq⟩
  · rintro ⟨other, rfl⟩
    rcases least with ⟨doublings, rfl, least⟩
    have small := Nat.pow_le_pow_right Nat.two_pos (least other (Nat.le_refl _))
    omega

/-- The payload of a writer has the least capacity for what has been written. -/
def StreamWriter.Snug (writer : StreamWriter S) : Prop :=
  LeastCapacity writer.payload.cursor.capacity writer.payload.cursor.position

theorem StreamWriter.snug_fresh (nativeOrder : ByteOrder) :
    (StreamWriter.fresh nativeOrder : StreamWriter S).Snug :=
  ⟨0, rfl, fun _ _ => Nat.zero_le _⟩

/-- What `maybeGrow` makes of capacity and position. -/
theorem Written.maybeGrow_cursor (written : Written nativeOrder writer words spare)
    (grown : StreamWriter.maybeGrow nativeOrder writer = .ok next) :
    next.payload.cursor.capacity =
        (if writer.payload.cursor.position = writer.payload.cursor.capacity then
          2 * writer.payload.cursor.capacity
        else
          writer.payload.cursor.capacity) ∧
      next.payload.cursor.position = writer.payload.cursor.position := by
  cases spare with
  | nil =>
      rcases written.grow (written.inRange_of_grown grown) with ⟨other, result, room, _⟩
      cases grown.symm.trans result
      rw [room.capacity_eq, room.position_eq, written.position_eq, written.capacity_eq,
        List.length_nil, List.length_replicate, Nat.add_zero, if_pos rfl]
      exact ⟨by omega, rfl⟩
  | cons first rest =>
      rw [written.maybeGrow_of_room] at grown
      cases grown
      rw [written.position_eq, written.capacity_eq, List.length_cons, if_neg (by omega)]
      exact ⟨rfl, rfl⟩

/-- A write of one word, whichever view it goes through. -/
theorem Written.snug_of_advance (written : Written nativeOrder writer words spare)
    (snug : writer.Snug) {roomy : StreamWriter S}
    (grown : StreamWriter.maybeGrow nativeOrder writer = .ok roomy)
    (position_eq : next.payload.cursor.position = roomy.payload.cursor.position + 1)
    (capacity_eq : next.payload.cursor.capacity = roomy.payload.cursor.capacity) : next.Snug := by
  rcases written.maybeGrow_cursor grown with ⟨roomyCapacity, roomyPosition⟩
  have fits := Nat.le_trans writer.payload.cursor.position_le writer.payload.cursor.limit_le
  rw [StreamWriter.Snug, position_eq, capacity_eq, roomyCapacity, roomyPosition]
  exact LeastCapacity.succ snug fits

theorem Written.snug_writeInt (written : Written nativeOrder writer words spare)
    (snug : writer.Snug) {word : Word}
    (succeeds : StreamWriter.writeInt nativeOrder writer word = .ok next) : next.Snug := by
  rcases bind_eq_ok.mp succeeds with ⟨roomy, grown, succeeds⟩
  rcases bind_eq_ok.mp succeeds with ⟨⟨memory, payload⟩, puts, succeeds⟩
  rcases bind_eq_ok.mp puts with ⟨cursor, advances, puts⟩
  cases puts
  cases succeeds
  unfold Cursor.advance at advances
  split at advances
  · cases advances
    exact written.snug_of_advance snug grown rfl rfl
  · cases advances

theorem Written.snug_writeFloat (written : Written nativeOrder writer words spare)
    (snug : writer.Snug) {value : JFloat}
    (succeeds : StreamWriter.writeFloat nativeOrder writer value = .ok next) : next.Snug := by
  rcases bind_eq_ok.mp succeeds with ⟨roomy, grown, succeeds⟩
  rcases bind_eq_ok.mp succeeds with ⟨memory, _, succeeds⟩
  rcases bind_eq_ok.mp succeeds with ⟨payload, positions, succeeds⟩
  cases succeeds
  rcases bind_eq_ok.mp positions with ⟨cursor, moves, positions⟩
  cases positions
  unfold Cursor.setPosition at moves
  split at moves
  · cases moves
    exact written.snug_of_advance snug grown rfl rfl
  · cases moves

/-- Three times one word. -/
theorem Written.snug_writeLong (written : Written nativeOrder writer words spare)
    (snug : writer.Snug) {value : JLong}
    (succeeds : StreamWriter.writeLong nativeOrder writer value = .ok next) : next.Snug := by
  rcases bind_eq_ok.mp succeeds with ⟨first, firstWrite, succeeds⟩
  rcases bind_eq_ok.mp succeeds with ⟨second, secondWrite, thirdWrite⟩
  rcases (written.writeInt firstWrite).written with ⟨_, firstWritten⟩
  rcases (firstWritten.writeInt secondWrite).written with ⟨_, secondWritten⟩
  have firstSnug := written.snug_writeInt snug firstWrite
  have secondSnug := firstWritten.snug_writeInt firstSnug secondWrite
  exact secondWritten.snug_writeInt secondSnug thirdWrite

variable [DecidableEq S]

theorem Written.snug_write (written : Written nativeOrder writer words spare)
    (snug : writer.Snug) {value : Value S}
    (succeeds : StreamWriter.write nativeOrder writer value = .ok next) : next.Snug := by
  cases value with
  | float value => exact written.snug_writeFloat snug succeeds
  | long value => exact written.snug_writeLong snug succeeds
  | double value => exact written.snug_writeLong snug succeeds
  | string value =>
      have tabled := written.withTable (StreamWriter.addString writer.stringTable value).2
      exact tabled.snug_writeInt snug succeeds
  | _ => exact written.snug_writeInt snug succeeds

/-- However much is written. -/
theorem Written.snug_writeAll (written : Written nativeOrder writer words spare)
    (snug : writer.Snug) {values : List (Value S)}
    (succeeds : StreamWriter.writeAll nativeOrder writer values = .ok next) : next.Snug := by
  induction values generalizing writer words spare with
  | nil =>
      cases succeeds
      exact snug
  | cons value values ih =>
      rcases bind_eq_ok.mp succeeds with ⟨middle, first, rest⟩
      rcases (written.write first).written with ⟨_, middleWritten⟩
      exact ih middleWritten (written.snug_write snug first) rest

/-- There is no room left in a writer exactly when the words and their header make up
eight times a power of two. -/
theorem Written.spare_eq_nil_iff {values : List (Value S)}
    (writes : StreamWriter.ofValues nativeOrder values = .ok writer)
    (written : Written nativeOrder writer words spare) :
    spare = [] ↔ ∃ doublings, 3 + words.length = 8 * 2 ^ doublings := by
  rw [StreamWriter.ofValues, StreamWriter.new_eq, ok_bind] at writes
  have snug := Written.fresh.snug_writeAll (StreamWriter.snug_fresh nativeOrder) writes
  have fits := Nat.le_trans writer.payload.cursor.position_le writer.payload.cursor.limit_le
  rw [← written.position_eq, ← LeastCapacity.full_iff snug fits, written.position_eq,
    written.capacity_eq, ← List.length_eq_zero_iff]
  omega

end WebbitGwt.Stream
