import WebbitGwt.Stream.Payload

/-!
# The writer keeps the words

What holds of a writer's buffers after any sequence of writes, through any number
of growths, and that every write adds the words of its value.
-/

namespace WebbitGwt.Stream

open WebbitGwt.Java
open WebbitGwt.Nio

variable {S : Type}

/-- The state of a writer's buffers when the given words have been written: three
header slots, the words, and room for more. -/
structure Written (nativeOrder : ByteOrder) (writer : StreamWriter S) (words spare : List Word) :
    Prop where
  memory_eq : writer.memory = nativeOrder.encode (0 :: 0 :: 0 :: (words ++ spare))
  bb_eq : writer.bb = { offset := 0, order := nativeOrder, cursor := .new writer.memory.length }
  payload_offset : writer.payload.offset = 0
  payload_order : writer.payload.order = nativeOrder
  position_eq : writer.payload.cursor.position = 3 + words.length
  limit_eq : writer.payload.cursor.limit = 3 + words.length + spare.length
  capacity_eq : writer.payload.cursor.capacity = 3 + words.length + spare.length
  memory_lt : writer.memory.length < 2 ^ 31

/-- A fresh writer has room for five words. -/
def StreamWriter.fresh (nativeOrder : ByteOrder) : StreamWriter S where
  memory := List.replicate 32 0
  bb := { offset := 0, order := nativeOrder, cursor := .new 32 }
  payload :=
    { offset := 0
      order := nativeOrder
      cursor :=
        { position := 3
          limit := 8
          capacity := 8
          position_le := (by decide : 3 ≤ 8)
          limit_le := Nat.le_refl 8 } }
  flags := 0
  version := 7
  stringTable := []

theorem StreamWriter.new_eq (nativeOrder : ByteOrder) :
    StreamWriter.new nativeOrder = .ok (StreamWriter.fresh nativeOrder : StreamWriter S) := by
  have allocated : ByteBuffer.allocate (8 <<< 2) =
      .ok (List.replicate 32 0, { offset := 0, order := .bigEndian, cursor := .new 32 }) := by
    rw [ByteBuffer.allocate, if_pos (by decide)]
    rfl
  have positioned : Buffer.setPosition (ByteBuffer.asIntBuffer
      (ByteBuffer.withOrder ⟨0, .bigEndian, .new 32⟩ nativeOrder)) 3 = .ok _ :=
    Buffer.setPosition_of_le (show 3 ≤ (32 - 0) / 4 by decide)
  simp only [StreamWriter.new, allocated, ok_bind, positioned]
  simp [StreamWriter.fresh, ByteBuffer.asIntBuffer, ByteBuffer.withOrder, Buffer.withCursor,
    Cursor.new, Cursor.remaining]
  rfl

/-- A bulk put into a zeroed buffer of twice the size fills its first half. -/
theorem putWords_doubled {order : ByteOrder} {words : List Word} {count : Nat}
    (length_eq : words.length = count)
    (enough : (Cursor.new (2 * count)).position + words.length ≤
      (Cursor.new (2 * count)).limit) :
    IntBuffer.putWords (order.encode (List.replicate (2 * count) 0))
        { offset := 0, order := order, cursor := .new (2 * count) } words =
      .ok (order.encode (words ++ List.replicate count 0),
        { offset := 0
          order := order
          cursor := (Cursor.new (2 * count)).skip words.length enough }) := by
  have layout : (List.replicate (2 * count) (0 : Word)).take 0 ++ words ++
      (List.replicate (2 * count) 0).drop (0 + words.length) =
        words ++ List.replicate count 0 := by
    rw [List.drop_replicate, List.take_zero, List.nil_append, Nat.zero_add, length_eq,
      Nat.two_mul, Nat.add_sub_cancel]
  rw [← layout]
  apply @IntBuffer.putWords_eq ⟨0, order, .new (2 * count)⟩ _ _ rfl enough
  rw [List.length_replicate, Cursor.new_limit]

namespace Written

variable {nativeOrder : ByteOrder} {writer next : StreamWriter S} {words spare : List Word}

theorem length_memory (written : Written nativeOrder writer words spare) :
    writer.memory.length = 4 * (3 + words.length + spare.length) := by
  rw [written.memory_eq, ByteOrder.length_encode]
  simp only [List.length_cons, List.length_append]
  omega

theorem fresh : Written nativeOrder (StreamWriter.fresh nativeOrder : StreamWriter S) []
    (List.replicate 5 0) where
  memory_eq := (nativeOrder.encode_replicate_zero 8).symm
  bb_eq := rfl
  payload_offset := rfl
  payload_order := rfl
  position_eq := rfl
  limit_eq := rfl
  capacity_eq := rfl
  memory_lt := by
    rw [StreamWriter.fresh, List.length_replicate]
    decide

theorem full (written : Written nativeOrder writer words []) :
    writer.payload.cursor.hasRemaining = false := by
  simp [Cursor.hasRemaining, written.position_eq, written.limit_eq]

theorem doubled (written : Written nativeOrder writer words []) :
    writer.bb.cursor.capacity * 2 = 4 * (2 * (3 + words.length)) := by
  rw [written.bb_eq, Cursor.new_capacity, written.length_memory, List.length_nil]
  omega

/-- While there is room, the buffer stays. -/
theorem maybeGrow_of_room {first : Word} {rest : List Word}
    (written : Written nativeOrder writer words (first :: rest)) :
    StreamWriter.maybeGrow nativeOrder writer = .ok writer := by
  have hasRemaining : writer.payload.cursor.hasRemaining = true := by
    simp [Cursor.hasRemaining, written.position_eq, written.limit_eq]
  rw [StreamWriter.maybeGrow, if_pos hasRemaining]
  rfl

/-- What a full payload hands over: the room for the header, and the words. -/
theorem remainingWords_flip (written : Written nativeOrder writer words []) :
    IntBuffer.remainingWords writer.memory
      (writer.payload.withCursor writer.payload.cursor.flip) = 0 :: 0 :: 0 :: words := by
  have start : (writer.payload.withCursor writer.payload.cursor.flip).offset = 0 :=
    written.payload_offset
  have inWords : (writer.payload.withCursor writer.payload.cursor.flip).cursor.limit ≤
      (0 :: 0 :: 0 :: words).length := by
    simp only [Buffer.withCursor_cursor, Cursor.flip_limit, written.position_eq,
      List.length_cons]
    omega
  have remaining := IntBuffer.remainingWords_eq start inWords
  rw [Buffer.withCursor_order, written.payload_order] at remaining
  rw [written.memory_eq, List.append_nil, remaining, Buffer.withCursor_cursor,
    Cursor.flip_limit, Cursor.flip_position, List.drop_zero, List.take_of_length_le]
  simp only [written.position_eq, List.length_cons]
  omega

/-- When the payload is full, growing doubles the memory and copies what has been
written, unless the memory would become too large. -/
theorem grow (written : Written nativeOrder writer words [])
    (inRange : 4 * (2 * (3 + words.length)) < 2 ^ 31) :
    ∃ next, StreamWriter.maybeGrow nativeOrder writer = .ok next ∧
      Written nativeOrder next words (List.replicate (3 + words.length) 0) ∧
      next.stringTable = writer.stringTable ∧ next.flags = writer.flags ∧
      next.version = writer.version := by
  have length_eq : (0 :: 0 :: 0 :: words).length = 3 + words.length := by
    rw [List.length_cons, List.length_cons, List.length_cons]
    omega
  have enough : (Cursor.new (2 * (3 + words.length))).position +
      (0 :: 0 :: 0 :: words).length ≤ (Cursor.new (2 * (3 + words.length))).limit := by
    rw [length_eq, Cursor.new_position, Cursor.new_limit]
    omega
  have fits : (writer.payload.withCursor writer.payload.cursor.flip).cursor.remaining ≤
      (Cursor.new (2 * (3 + words.length))).remaining := by
    simp only [Buffer.withCursor_cursor, Cursor.remaining, Cursor.flip_limit,
      Cursor.flip_position, Cursor.new_limit, Cursor.new_position, written.position_eq]
    omega
  refine ⟨
    { writer with
      memory := nativeOrder.encode (0 :: 0 :: 0 :: words ++ List.replicate (3 + words.length) 0)
      bb :=
        { offset := 0, order := nativeOrder, cursor := .new (4 * (2 * (3 + words.length))) }
      payload :=
        { offset := 0
          order := nativeOrder
          cursor := (Cursor.new (2 * (3 + words.length))).skip _ enough } },
    ?_, ⟨rfl, ?_, rfl, rfl, ?_, ?_, ?_, ?_⟩, rfl, rfl, rfl⟩
  · simp only [StreamWriter.maybeGrow, written.full, written.doubled, Bool.false_eq_true,
      if_false, ByteBuffer.allocate_of_lt inRange, ok_bind, ByteBuffer.withOrder,
      ByteBuffer.asIntBuffer_new, IntBuffer.putBuffer, if_pos fits, written.remainingWords_flip,
      ← ByteOrder.encode_replicate_zero nativeOrder, putWords_doubled length_eq enough]
    rfl
  · simp only [ByteOrder.length_encode, List.length_append, length_eq, List.length_replicate]
    congr 2
    omega
  · rw [Cursor.skip_position, Cursor.new_position, length_eq, Nat.zero_add]
  · rw [Cursor.skip_limit, Cursor.new_limit, List.length_replicate]
    omega
  · rw [Cursor.skip_capacity, Cursor.new_capacity, List.length_replicate]
    omega
  · simp only [ByteOrder.length_encode, List.length_append, length_eq, List.length_replicate]
    omega

/-- A full writer that grows stays below the largest size. -/
theorem inRange_of_grown (written : Written nativeOrder writer words [])
    (grown : StreamWriter.maybeGrow nativeOrder writer = .ok next) :
    4 * (2 * (3 + words.length)) < 2 ^ 31 := by
  simp only [StreamWriter.maybeGrow, written.full, written.doubled, Bool.false_eq_true,
    if_false] at grown
  rcases bind_eq_ok.mp grown with ⟨_, allocated, _⟩
  exact (ByteBuffer.allocate_eq_ok allocated).1

/-- `maybeGrow` makes room and changes nothing else. -/
theorem maybeGrow (written : Written nativeOrder writer words spare)
    (grown : StreamWriter.maybeGrow nativeOrder writer = .ok next) :
    ∃ first rest, Written nativeOrder next words (first :: rest) ∧
      next.stringTable = writer.stringTable ∧ next.flags = writer.flags ∧
      next.version = writer.version := by
  cases spare with
  | nil =>
      rcases written.grow (written.inRange_of_grown grown) with ⟨other, result, state⟩
      cases grown.symm.trans result
      rw [Nat.add_comm, List.replicate_succ] at state
      exact ⟨_, _, state⟩
  | cons first rest =>
      rw [written.maybeGrow_of_room] at grown
      cases grown
      exact ⟨first, rest, written, rfl, rfl, rfl⟩

/-- Growing succeeds as long as the words fit into the largest possible buffer. -/
theorem maybeGrow_succeeds (written : Written nativeOrder writer words spare)
    (inRange : 3 + words.length < 2 ^ 28) :
    ∃ next, StreamWriter.maybeGrow nativeOrder writer = .ok next := by
  cases spare with
  | nil =>
      rcases written.grow (by omega) with ⟨next, result, _⟩
      exact ⟨next, result⟩
  | cons first rest => exact ⟨writer, written.maybeGrow_of_room⟩

/-- There is room for the next word. -/
theorem hasRoom {first : Word} {rest : List Word}
    (written : Written nativeOrder writer words (first :: rest)) :
    writer.payload.cursor.position + 1 ≤ writer.payload.cursor.limit := by
  rw [written.position_eq, written.limit_eq, List.length_cons]
  omega

/-- A word put where the payload stands. -/
theorem store {first : Word} {rest : List Word}
    (written : Written nativeOrder writer words (first :: rest)) (word : Word) :
    nativeOrder.store writer.memory (4 * (3 + words.length)) word =
      nativeOrder.encode (0 :: 0 :: 0 :: ((words ++ [word]) ++ rest)) := by
  have bound : 3 + words.length < (0 :: 0 :: 0 :: (words ++ first :: rest)).length := by
    simp only [List.length_cons, List.length_append]
    omega
  have stored := nativeOrder.store_encode bound [] word
  rw [List.append_nil, List.append_nil] at stored
  rw [written.memory_eq, stored, Nat.add_comm 3]
  simp

/-- The state after one more word. -/
theorem push {first : Word} {rest : List Word}
    (written : Written nativeOrder writer words (first :: rest)) (word : Word)
    {payload : IntBuffer} (offset_eq : payload.offset = writer.payload.offset)
    (order_eq : payload.order = writer.payload.order)
    (position_eq : payload.cursor.position = writer.payload.cursor.position + 1)
    (limit_eq : payload.cursor.limit = writer.payload.cursor.limit)
    (capacity_eq : payload.cursor.capacity = writer.payload.cursor.capacity) :
    Written nativeOrder
      { writer with
        memory := nativeOrder.store writer.memory (4 * (3 + words.length)) word
        payload := payload }
      (words ++ [word]) rest := by
  have length : (nativeOrder.store writer.memory (4 * (3 + words.length)) word).length =
      writer.memory.length := by
    rw [written.store, written.memory_eq]
    simp
  refine ⟨written.store word, ?_, ?_, ?_, ?_, ?_, ?_, ?_⟩
  · rw [written.bb_eq, length]
  · exact offset_eq.trans written.payload_offset
  · exact order_eq.trans written.payload_order
  · rw [position_eq, written.position_eq, List.length_append, List.length_singleton]
    omega
  · rw [limit_eq, written.limit_eq, List.length_append, List.length_singleton, List.length_cons]
    omega
  · rw [capacity_eq, written.capacity_eq, List.length_append, List.length_singleton,
      List.length_cons]
    omega
  · exact length ▸ written.memory_lt

end Written

/-- What writing leaves: the words it adds and its string table, and otherwise the
same writer. -/
structure Adds (nativeOrder : ByteOrder) (writer next : StreamWriter S)
    (words added : List Word) (table : List S) : Prop where
  written : ∃ spare, Written nativeOrder next (words ++ added) spare
  stringTable_eq : next.stringTable = table
  flags_eq : next.flags = writer.flags
  version_eq : next.version = writer.version

variable {nativeOrder : ByteOrder} {writer middle next : StreamWriter S}
  {words spare : List Word} {table : List S}

/-- Writing one thing after another. -/
theorem Adds.trans {first second : List Word} {earlier : List S}
    (before : Adds nativeOrder writer middle words first earlier)
    (after : Adds nativeOrder middle next (words ++ first) second table) :
    Adds nativeOrder writer next words (first ++ second) table where
  written := by
    rw [← List.append_assoc]
    exact after.written
  stringTable_eq := after.stringTable_eq
  flags_eq := after.flags_eq.trans before.flags_eq
  version_eq := after.version_eq.trans before.version_eq

namespace Written

theorem writeInt (written : Written nativeOrder writer words spare) {word : Word}
    (succeeds : StreamWriter.writeInt nativeOrder writer word = .ok next) :
    Adds nativeOrder writer next words [word] writer.stringTable := by
  rcases bind_eq_ok.mp succeeds with ⟨roomy, grown, succeeds⟩
  rcases written.maybeGrow grown with ⟨first, rest, room, sameTable, sameFlags, sameVersion⟩
  have enough := room.hasRoom
  simp only [IntBuffer.put, Cursor.advance_of_le enough, ok_bind, IntBuffer.address,
    room.payload_offset, room.payload_order, room.position_eq, Nat.zero_add] at succeeds
  cases succeeds
  exact ⟨⟨rest, room.push word rfl rfl rfl rfl rfl⟩, sameTable, sameFlags, sameVersion⟩

/-- A float view covers the same words as the payload. -/
theorem floats (written : Written nativeOrder writer words spare) :
    ByteBuffer.asFloatBuffer writer.bb =
      { offset := 0
        order := nativeOrder
        cursor := .new (3 + words.length + spare.length) } := by
  rw [written.bb_eq, written.length_memory]
  exact ByteBuffer.asIntBuffer_new _ _

/-- A float goes through a view of its own, to the place where an integer would. -/
theorem writeFloat (written : Written nativeOrder writer words spare) {value : JFloat}
    (succeeds : StreamWriter.writeFloat nativeOrder writer value = .ok next) :
    Adds nativeOrder writer next words [value.bits] writer.stringTable := by
  rcases bind_eq_ok.mp succeeds with ⟨roomy, grown, succeeds⟩
  rcases written.maybeGrow grown with ⟨first, rest, room, sameTable, sameFlags, sameVersion⟩
  have floats := room.floats
  have inRange : 3 + words.length < 3 + words.length + (first :: rest).length := by
    rw [List.length_cons]
    omega
  have advanced := room.hasRoom
  rw [room.position_eq] at advanced
  simp only [floats, IntBuffer.putAt, Cursor.checkIndex, Cursor.new_limit, room.position_eq,
    if_pos inRange, ok_bind, IntBuffer.address, Nat.zero_add,
    Buffer.setPosition_of_le advanced, pure_bind] at succeeds
  cases succeeds
  refine ⟨⟨rest, room.push value.bits rfl rfl ?_ rfl rfl⟩, sameTable, sameFlags, sameVersion⟩
  rw [room.position_eq]
  rfl

/-- A `long` is three integers. -/
theorem writeLong (written : Written nativeOrder writer words spare) {value : JLong}
    (succeeds : StreamWriter.writeLong nativeOrder writer value = .ok next) :
    Adds nativeOrder writer next words
      [(splitLong value).1, (splitLong value).2.1, (splitLong value).2.2]
      writer.stringTable := by
  rcases bind_eq_ok.mp succeeds with ⟨first, firstWrite, succeeds⟩
  rcases bind_eq_ok.mp succeeds with ⟨second, secondWrite, thirdWrite⟩
  have firstAdds := written.writeInt firstWrite
  rcases firstAdds.written with ⟨_, firstWritten⟩
  have secondAdds := firstWritten.writeInt secondWrite
  rcases secondAdds.written with ⟨_, secondWritten⟩
  have thirdAdds := secondWritten.writeInt thirdWrite
  rw [secondAdds.stringTable_eq, firstAdds.stringTable_eq] at thirdAdds
  exact firstAdds.trans (secondAdds.trans thirdAdds)

/-- The string table is kept apart from the buffers. -/
theorem withTable (written : Written nativeOrder writer words spare) (table : List S) :
    Written nativeOrder { writer with stringTable := table } words spare :=
  ⟨written.memory_eq, written.bb_eq, written.payload_offset, written.payload_order,
    written.position_eq, written.limit_eq, written.capacity_eq, written.memory_lt⟩

variable [DecidableEq S]

/-- Every write adds the words of its value. -/
theorem write (written : Written nativeOrder writer words spare) {value : Value S}
    (succeeds : StreamWriter.write nativeOrder writer value = .ok next) :
    Adds nativeOrder writer next words (value.encode writer.stringTable).1
      (value.encode writer.stringTable).2 := by
  cases value with
  | int value => exact written.writeInt succeeds
  | boolean value => exact written.writeInt succeeds
  | byte value => exact written.writeInt succeeds
  | char value => exact written.writeInt succeeds
  | short value => exact written.writeInt succeeds
  | long value => exact written.writeLong succeeds
  | float value => exact written.writeFloat succeeds
  | double value => exact written.writeLong succeeds
  | string value =>
      have tabled := written.withTable (StreamWriter.addString writer.stringTable value).2
      have adds := tabled.writeInt succeeds
      exact ⟨adds.written, adds.stringTable_eq, adds.flags_eq, adds.version_eq⟩

/-- And so does a sequence of writes. -/
theorem writeAll (written : Written nativeOrder writer words spare) {values : List (Value S)}
    (succeeds : StreamWriter.writeAll nativeOrder writer values = .ok next) :
    Adds nativeOrder writer next words (encodeAll writer.stringTable values).1
      (encodeAll writer.stringTable values).2 := by
  induction values generalizing writer words spare with
  | nil =>
      cases succeeds
      exact ⟨⟨spare, by simpa [encodeAll] using written⟩, rfl, rfl, rfl⟩
  | cons value values ih =>
      rcases bind_eq_ok.mp succeeds with ⟨middle, first, rest⟩
      have firstAdds := written.write first
      rcases firstAdds.written with ⟨_, middleWritten⟩
      have restAdds := ih middleWritten rest
      rw [firstAdds.stringTable_eq] at restAdds
      exact firstAdds.trans restAdds

/-- Whatever has been written, its words are there. -/
theorem ofValues {values : List (Value S)}
    (writes : StreamWriter.ofValues nativeOrder values = .ok writer) :
    Adds nativeOrder (StreamWriter.fresh nativeOrder) writer [] (encodeAll [] values).1
      (encodeAll [] values).2 := by
  rw [StreamWriter.ofValues, StreamWriter.new_eq, ok_bind] at writes
  exact Written.fresh.writeAll writes

/-! ## Writing succeeds -/

omit [DecidableEq S] in
theorem writeInt_succeeds (written : Written nativeOrder writer words spare)
    (inRange : 3 + words.length < 2 ^ 28) (word : Word) :
    ∃ next, StreamWriter.writeInt nativeOrder writer word = .ok next := by
  rcases written.maybeGrow_succeeds inRange with ⟨roomy, grown⟩
  rcases written.maybeGrow grown with ⟨first, rest, room, _⟩
  have enough := room.hasRoom
  simp only [StreamWriter.writeInt, grown, ok_bind, IntBuffer.put, Cursor.advance_of_le enough]
  exact ⟨_, rfl⟩

omit [DecidableEq S] in
theorem writeFloat_succeeds (written : Written nativeOrder writer words spare)
    (inRange : 3 + words.length < 2 ^ 28) (value : JFloat) :
    ∃ next, StreamWriter.writeFloat nativeOrder writer value = .ok next := by
  rcases written.maybeGrow_succeeds inRange with ⟨roomy, grown⟩
  rcases written.maybeGrow grown with ⟨first, rest, room, _⟩
  have floats := room.floats
  have inRange : 3 + words.length < 3 + words.length + (first :: rest).length := by
    rw [List.length_cons]
    omega
  have advanced := room.hasRoom
  rw [room.position_eq] at advanced
  simp only [StreamWriter.writeFloat, grown, ok_bind, floats, IntBuffer.putAt,
    Cursor.checkIndex, Cursor.new_limit, room.position_eq, if_pos inRange, pure_bind,
    Buffer.setPosition_of_le advanced]
  exact ⟨_, rfl⟩

omit [DecidableEq S] in
theorem writeLong_succeeds (written : Written nativeOrder writer words spare)
    (inRange : 3 + words.length + 2 < 2 ^ 28) (value : JLong) :
    ∃ next, StreamWriter.writeLong nativeOrder writer value = .ok next := by
  rcases written.writeInt_succeeds (by omega) (splitLong value).1 with ⟨first, firstWrite⟩
  rcases (written.writeInt firstWrite).written with ⟨_, firstWritten⟩
  obtain ⟨second, secondWrite⟩ := firstWritten.writeInt_succeeds
    (by rw [List.length_append, List.length_singleton]; omega) (splitLong value).2.1
  rcases (firstWritten.writeInt secondWrite).written with ⟨_, secondWritten⟩
  obtain ⟨third, thirdWrite⟩ := secondWritten.writeInt_succeeds
    (by simp only [List.length_append, List.length_singleton]; omega) (splitLong value).2.2
  refine ⟨third, ?_⟩
  simp only [StreamWriter.writeLong, firstWrite, secondWrite, ok_bind]
  exact thirdWrite

theorem write_succeeds (written : Written nativeOrder writer words spare) (value : Value S)
    (inRange : 3 + words.length + value.kind.width ≤ 2 ^ 28) :
    ∃ next, StreamWriter.write nativeOrder writer value = .ok next := by
  cases value with
  | float value => exact written.writeFloat_succeeds inRange value
  | long value => exact written.writeLong_succeeds inRange value
  | double value => exact written.writeLong_succeeds inRange _
  | string value =>
      have tabled := written.withTable (StreamWriter.addString writer.stringTable value).2
      exact tabled.writeInt_succeeds inRange _
  | _ => exact written.writeInt_succeeds inRange _

/-- Sequences of values can be written up to a buffer of 2^30 bytes, the largest
below 2^31 that doubling reaches. -/
theorem writeAll_succeeds (written : Written nativeOrder writer words spare)
    {values : List (Value S)}
    (inRange : 3 + words.length + (values.map fun value => value.kind.width).sum ≤ 2 ^ 28) :
    ∃ next, StreamWriter.writeAll nativeOrder writer values = .ok next := by
  induction values generalizing writer words spare with
  | nil => exact ⟨writer, rfl⟩
  | cons value values ih =>
      rw [List.map_cons, List.sum_cons] at inRange
      rcases written.write_succeeds value (by omega) with ⟨middle, first⟩
      rcases (written.write first).written with ⟨_, middleWritten⟩
      have length := value.length_encode writer.stringTable
      rcases ih middleWritten (by rw [List.length_append, length]; omega) with ⟨next, rest⟩
      refine ⟨next, ?_⟩
      simp only [StreamWriter.writeAll, first, ok_bind]
      exact rest

end Written

/-- So a fresh writer can write them. -/
theorem ofValues_succeeds [DecidableEq S] (nativeOrder : ByteOrder) (values : List (Value S))
    (inRange : 3 + (values.map fun value => value.kind.width).sum ≤ 2 ^ 28) :
    ∃ writer, StreamWriter.ofValues nativeOrder values = .ok writer := by
  rw [StreamWriter.ofValues, StreamWriter.new_eq, ok_bind]
  exact Written.fresh.writeAll_succeeds inRange

end WebbitGwt.Stream
