import WebbitGwt.Stream.Capacity

/-!
# The two views of a growing buffer

`writeInt` goes through an integer view that is kept, with a cursor of its own, and
`writeFloat` through a float view of the byte buffer that is made for the one write.
Growing replaces the byte buffer and the integer view, so the two views have to be of the
same memory again after any number of writes of either type, and their indices have to
mean the same words.
-/

namespace WebbitGwt.Stream

open WebbitGwt.Java
open WebbitGwt.Nio

variable {S : Type}

/-- A write of one word, through either view. -/
inductive WordWrite
  | int (fieldValue : JInt)
  | float (fieldValue : JFloat)
  deriving DecidableEq

namespace WordWrite

/-- The value that is written. -/
def value : WordWrite → Value S
  | .int fieldValue => .int fieldValue
  | .float fieldValue => .float fieldValue

/-- The word that is to be found in memory. -/
def word : WordWrite → Word
  | .int fieldValue => fieldValue
  | .float fieldValue => fieldValue.bits

theorem width_eq_one (write : WordWrite) : (write.value : Value S).kind.width = 1 := by
  cases write with
  | int fieldValue => rfl
  | float fieldValue => rfl

theorem encodeAll_eq [DecidableEq S] (table : List S) (writes : List WordWrite) :
    encodeAll table (writes.map value) = (writes.map word, table) := by
  induction writes with
  | nil => rfl
  | cons write writes ih =>
      rw [List.map_cons, List.map_cons, encodeAll]
      cases write with
      | int fieldValue =>
          simp only [value, Value.encode, ih]
          rfl
      | float fieldValue =>
          simp only [value, Value.encode, ih]
          rfl

theorem sum_width (writes : List WordWrite) :
    ((writes.map (value (S := S))).map fun value => value.kind.width).sum = writes.length := by
  induction writes with
  | nil => rfl
  | cons write writes ih =>
      rw [List.map_cons, List.map_cons, List.sum_cons, ih, width_eq_one, List.length_cons,
        Nat.add_comm]

end WordWrite

/-- A buffer of less than 2^31 bytes, which doubling reaches, has room for the header and
that many words. -/
def SizeInRange (count : Nat) : Prop :=
  ∃ doublings, 3 + count ≤ 8 * 2 ^ doublings ∧ 4 * (8 * 2 ^ doublings) < 2 ^ 31

/-- The largest such buffer has 2^30 bytes. -/
theorem SizeInRange.le {count : Nat} (sizes : SizeInRange count) : 3 + count ≤ 2 ^ 28 := by
  rcases sizes with ⟨doublings, enough, inRange⟩
  have few : doublings ≤ 25 := by
    apply Nat.le_of_not_lt
    intro many
    have large : 2 ^ 26 ≤ 2 ^ doublings := Nat.pow_le_pow_right Nat.two_pos many
    omega
  have small : 2 ^ doublings ≤ 2 ^ 25 := Nat.pow_le_pow_right Nat.two_pos few
  omega

/-- The fields of a writer and its memory when the given words have been written. -/
structure GrowthInvariant (writer : StreamWriter S) (words : List Word) : Prop where
  quarter : 4 * writer.payload.cursor.capacity = writer.bb.cursor.capacity
  least : LeastCapacity writer.payload.cursor.capacity writer.payload.cursor.position
  fits : writer.payload.cursor.position ≤ writer.payload.cursor.capacity
  cursor_eq : writer.payload.cursor.position = 3 + words.length
  bb_position : writer.bb.cursor.position = 0
  same_bytes : ∀ index, IntBuffer.address (ByteBuffer.asFloatBuffer writer.bb) index =
    IntBuffer.address writer.payload index
  same_order : (ByteBuffer.asFloatBuffer writer.bb).order = writer.payload.order
  header : ∀ index < 3, IntBuffer.getAt writer.memory writer.payload index = .ok 0
  written : ∀ index (bound : index < words.length),
    IntBuffer.getAt writer.memory writer.payload (3 + index) = .ok words[index]

/-- Whatever a write puts, be it what `maybeGrow` copies or the word itself, through either
view, is put below the limit. -/
structure PutsInside (writer roomy : StreamWriter S) : Prop where
  copied : writer.payload.cursor.flip.remaining ≤ roomy.payload.cursor.limit
  int_put : roomy.payload.cursor.position < roomy.payload.cursor.limit
  float_put : roomy.payload.cursor.position < (ByteBuffer.asFloatBuffer roomy.bb).cursor.limit

namespace Written

variable {nativeOrder : ByteOrder} {writer roomy : StreamWriter S} {words spare : List Word}

/-- The payload reads the words behind the header, which is still zero. -/
theorem getAt (written : Written nativeOrder writer words spare) {index : Nat}
    (bound : index < (0 :: 0 :: 0 :: words).length) :
    IntBuffer.getAt writer.memory writer.payload index =
      .ok (0 :: 0 :: 0 :: words)[index] := by
  have length_eq : (0 :: 0 :: 0 :: words).length = 3 + words.length := by
    simp only [List.length_cons]
    omega
  have inRange : index < writer.payload.cursor.limit := by
    rw [written.limit_eq]
    omega
  rw [written.memory_eq, ← written.payload_order, ← List.cons_append, ← List.cons_append,
    ← List.cons_append, ByteOrder.encode_append]
  exact IntBuffer.getAt_eq written.payload_offset inRange bound _

theorem growthInvariant (written : Written nativeOrder writer words spare)
    (snug : writer.Snug) : GrowthInvariant writer words where
  quarter := by
    rw [written.bb_eq, Cursor.new_capacity, written.length_memory, written.capacity_eq]
  least := snug
  fits := Nat.le_trans writer.payload.cursor.position_le writer.payload.cursor.limit_le
  cursor_eq := written.position_eq
  bb_position := by
    rw [written.bb_eq]
    rfl
  same_bytes := by
    intro index
    rw [IntBuffer.address, IntBuffer.address, written.floats, written.payload_offset]
  same_order := by rw [written.floats, written.payload_order]
  header := by
    intro index isHeader
    rw [written.getAt (by simp only [List.length_cons]; omega)]
    rcases index with _ | _ | _ | index
    · rfl
    · rfl
    · rfl
    · omega
  written := by
    intro index bound
    rw [written.getAt (by simp only [List.length_cons]; omega)]
    simp only [Nat.add_comm 3, List.getElem_cons_succ]

/-- `maybeGrow` leaves room for the word that follows. -/
theorem putsInside (written : Written nativeOrder writer words spare)
    (grown : StreamWriter.maybeGrow nativeOrder writer = .ok roomy) :
    PutsInside writer roomy := by
  rcases written.maybeGrow grown with ⟨first, rest, room, _⟩
  constructor
  · rw [Cursor.remaining, Cursor.flip_limit, Cursor.flip_position, written.position_eq,
      room.limit_eq]
    omega
  · exact room.hasRoom
  · rw [room.floats, Cursor.new_limit, room.position_eq, List.length_cons]
    omega

end Written

variable [DecidableEq S]

/-- A fresh writer that has written some words. -/
theorem written_of_writes {nativeOrder : ByteOrder} {writer : StreamWriter S}
    {writes : List WordWrite}
    (runs : StreamWriter.ofValues nativeOrder (writes.map WordWrite.value) = .ok writer) :
    (∃ spare, Written nativeOrder writer (writes.map WordWrite.word) spare) ∧ writer.Snug := by
  have adds := Written.ofValues runs
  rw [WordWrite.encodeAll_eq] at adds
  rw [StreamWriter.ofValues, StreamWriter.new_eq, ok_bind] at runs
  exact ⟨adds.written, Written.fresh.snug_writeAll (StreamWriter.snug_fresh nativeOrder) runs⟩

/-- However many words are written in whatever mix of the two types, the writer keeps its
two views in step, and before each of the writes there was room for it. -/
theorem writer_grows_in_step (nativeOrder : ByteOrder) (writes : List WordWrite)
    (sizes : SizeInRange writes.length) :
    (∃ writer : StreamWriter S,
      StreamWriter.ofValues nativeOrder (writes.map WordWrite.value) = .ok writer ∧
        GrowthInvariant writer (writes.map WordWrite.word)) ∧
    ∀ before write after, writes = before ++ write :: after →
      ∃ writer roomy : StreamWriter S,
        StreamWriter.ofValues nativeOrder (before.map WordWrite.value) = .ok writer ∧
          StreamWriter.maybeGrow nativeOrder writer = .ok roomy ∧ PutsInside writer roomy := by
  have inRange := sizes.le
  constructor
  · rcases ofValues_succeeds nativeOrder (writes.map (WordWrite.value (S := S)))
        (by rw [WordWrite.sum_width]; exact inRange) with ⟨writer, runs⟩
    rcases written_of_writes runs with ⟨⟨spare, written⟩, snug⟩
    exact ⟨writer, runs, written.growthInvariant snug⟩
  · rintro before write after rfl
    rw [List.length_append, List.length_cons] at inRange
    rcases ofValues_succeeds nativeOrder (before.map (WordWrite.value (S := S)))
        (by rw [WordWrite.sum_width]; omega) with ⟨writer, runs⟩
    rcases written_of_writes runs with ⟨⟨spare, written⟩, _⟩
    rcases written.maybeGrow_succeeds (by rw [List.length_map]; omega) with ⟨roomy, grown⟩
    exact ⟨writer, roomy, runs, grown, written.putsInside grown⟩

/-- Six words, the last of them behind the first growth. -/
def sixWrites : List WordWrite :=
  [.int 1, .float (.ofBits 0x3f800000), .int 3, .int 4, .float (.ofBits 0x40000000), .int 6]

theorem writer_grows_in_step_six :
    SizeInRange sixWrites.length ∧
      ∃ writer : StreamWriter String,
        StreamWriter.ofValues .littleEndian (sixWrites.map WordWrite.value) = .ok writer ∧
          GrowthInvariant writer [1, 0x3f800000, 3, 4, 0x40000000, 6] := by
  have sizes : SizeInRange sixWrites.length := ⟨1, by decide, by decide⟩
  exact ⟨sizes, (writer_grows_in_step .littleEndian sixWrites sizes).1⟩

end WebbitGwt.Stream
