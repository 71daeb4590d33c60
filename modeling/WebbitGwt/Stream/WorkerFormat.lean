import WebbitGwt.Stream.Growth
import WebbitGwt.Stream.Reading

/-!
# The worker format

A message between workers is the memory behind the payload, passed on without a
copy, and the string table.
-/

namespace WebbitGwt.Stream

open WebbitGwt.Java
open WebbitGwt.Nio

variable {S : Type} {nativeOrder : ByteOrder} {writer : StreamWriter S}
  {words spare : List Word}

/-- A header word is put into the cut payload. -/
theorem putHeader (nativeOrder : ByteOrder) {count index : Nat} {all : List Word}
    (inHeader : index < 3) (enough : 3 + count ≤ all.length) (value : Word) :
    IntBuffer.putAt (nativeOrder.encode all)
        { offset := 0, order := nativeOrder, cursor := .new (3 + count) } index value =
      .ok (nativeOrder.encode (all.set index value)) :=
  @IntBuffer.putAt_eq ⟨0, nativeOrder, .new (3 + count)⟩ all index rfl
    (by rw [Cursor.new_limit]; omega) (by rw [Cursor.new_limit]; exact enough) value

/-- The view of what has been written, from the header on. -/
theorem Written.cut (written : Written nativeOrder writer words spare) :
    ∃ limited rewound, Buffer.setLimit writer.payload writer.payload.cursor.position =
        .ok limited ∧ Buffer.setPosition limited 0 = .ok rewound ∧
      rewound.slice =
        { offset := 0, order := nativeOrder, cursor := .new (3 + words.length) } := by
  have inCapacity : writer.payload.cursor.position ≤ writer.payload.cursor.capacity := by
    rw [written.position_eq, written.capacity_eq]
    omega
  refine ⟨_, _, Buffer.setLimit_of_le inCapacity, Buffer.setPosition_of_le (Nat.zero_le _), ?_⟩
  simp only [Buffer.slice, Buffer.withCursor, Cursor.remaining, written.payload_offset,
    written.payload_order, written.position_eq, Nat.mul_zero, Nat.add_zero, Nat.sub_zero]

/-- The finished payload: the header is filled in, and the view is cut to what has
been written.  The memory still has the room that was left. -/
theorem Written.finish (written : Written nativeOrder writer words spare) :
    StreamWriter.finish writer =
      .ok (nativeOrder.encode (writer.flags :: writer.version ::
          BitVec.ofNat 32 words.length :: (words ++ spare)),
        { offset := 0, order := nativeOrder, cursor := .new (3 + words.length) }) := by
  rcases written.cut with ⟨limited, rewound, limits, rewinds, sliced⟩
  have size : BitVec.ofNat 32 (3 + words.length) - 3 = BitVec.ofNat 32 words.length := by
    rw [BitVec.ofNat_add]
    exact add_sub_cancel_left _ _
  have enough (first second third : Word) :
      3 + words.length ≤ (first :: second :: third :: (words ++ spare)).length := by
    simp only [List.length_cons, List.length_append]
    omega
  simp only [StreamWriter.finish, limits, rewinds, sliced, ok_bind, written.memory_eq,
    putHeader nativeOrder (show 0 < 3 by decide) (enough _ _ _),
    putHeader nativeOrder (show 1 < 3 by decide) (enough _ _ _),
    putHeader nativeOrder (show 2 < 3 by decide) (enough _ _ _), List.set_cons_zero,
    List.set_cons_succ, Cursor.new_limit, size]
  rfl

/-- The parts of a message. -/
theorem Written.getWorkerData (written : Written nativeOrder writer words spare) :
    StreamWriter.getWorkerData writer =
      .ok
        { buffer := nativeOrder.encode (writer.flags :: writer.version ::
            BitVec.ofNat 32 words.length :: (words ++ spare))
          strings := writer.stringTable } := by
  rw [StreamWriter.getWorkerData, written.finish]
  rfl

/-- The words at the start of a memory are a header and what follows it. -/
theorem reads_header {order : ByteOrder} {memory back : List Byte} {first second third : Word}
    {words : List Word}
    (memory_eq : memory = order.encode (first :: second :: third :: words) ++ back)
    (strings : List S) (flags version : JInt) :
    ∃ afterFirst afterSecond ints,
      IntBuffer.get memory (ByteBuffer.asIntBuffer (ByteBuffer.withOrder (ByteBuffer.wrap memory)
        order)) = .ok (first, afterFirst) ∧
      IntBuffer.get memory afterFirst = .ok (second, afterSecond) ∧
      IntBuffer.get memory afterSecond = .ok (third, ints) ∧
      ints.cursor.position = 3 ∧ ints.cursor.limit = memory.length / 4 ∧
      Feeds order 0
        { memory, bb := ByteBuffer.withOrder (ByteBuffer.wrap memory) order, payload := ints,
          strings, flags, version } words := by
  have here := ByteBuffer.At.start order (order.encode (first :: second :: third :: words)) back
  rw [← memory_eq] at here
  have enough : (first :: second :: third :: words).length ≤ memory.length / 4 := by
    rw [memory_eq, List.length_append, ByteOrder.length_encode]
    omega
  have feeds : Feeds order 0
      { memory, bb := ByteBuffer.withOrder (ByteBuffer.wrap memory) order,
        payload := ByteBuffer.asIntBuffer (ByteBuffer.withOrder (ByteBuffer.wrap memory) order),
        strings, flags, version } _ :=
    .ofAt here rfl rfl rfl rfl enough strings flags version
  rcases feeds.get with ⟨afterFirst, getFirst, positionFirst, limitFirst, feedsSecond⟩
  rcases feedsSecond.get with ⟨afterSecond, getSecond, positionSecond, limitSecond, feedsThird⟩
  rcases feedsThird.get with ⟨ints, getThird, positionThird, limitThird, feedsWords⟩
  refine ⟨afterFirst, afterSecond, ints, getFirst, getSecond, getThird, ?_, ?_, feedsWords⟩
  · rw [positionThird, positionSecond, positionFirst]
    rfl
  · exact limitThird.trans (limitSecond.trans limitFirst)

/-- The reader of a message starts at the words, and sees what room was left. -/
theorem feeds_ofWorkerData (nativeOrder : ByteOrder) (first second third : Word)
    (words : List Word) (strings : List S) :
    ∃ reader, StreamReader.ofWorkerData nativeOrder
        { buffer := nativeOrder.encode (first :: second :: third :: words)
          strings := strings } = .ok reader ∧
      Feeds nativeOrder 0 reader words ∧ reader.strings = strings := by
  obtain ⟨_, _, _, getFirst, getSecond, getThird, _, _, feeds⟩ :=
    reads_header (List.append_nil (nativeOrder.encode (first :: second :: third :: words))).symm
      strings second first
  refine ⟨_, ?_, feeds, rfl⟩
  simp only [StreamReader.ofWorkerData, StreamReader.ofBuffer, getFirst, getSecond, getThird,
    ok_bind]
  rfl

variable [DecidableEq S]

/-- A fresh writer after a sequence of writes.  Every string in its table has an
index, since every one took a word to write. -/
theorem written_of_new (nativeOrder : ByteOrder) {values : List (Value S)}
    (inRange : 3 + (values.map fun value => value.kind.width).sum ≤ 2 ^ 28) :
    ∃ fresh writer spare, StreamWriter.new nativeOrder = .ok fresh ∧
      StreamWriter.writeAll nativeOrder fresh values = .ok writer ∧
      Written nativeOrder writer (encodeAll [] values).1 spare ∧
      writer.stringTable = (encodeAll [] values).2 ∧
      (encodeAll [] values).1.length < 2 ^ 31 ∧ writer.stringTable.length < 2 ^ 31 := by
  have fresh : Written nativeOrder (StreamWriter.fresh nativeOrder : StreamWriter S) [] _ := .fresh
  rcases fresh.writeAll_succeeds (by simpa using inRange) with ⟨writer, writes⟩
  rcases Written.fresh.writeAll writes with ⟨⟨spare, written⟩, table, _, _⟩
  have wordCount := length_words_encodeAll [] values
  have stringCount := length_encodeAll [] values
  rw [List.length_nil] at stringCount
  refine ⟨_, writer, spare, StreamWriter.new_eq nativeOrder, writes, written, table, by omega, ?_⟩
  rw [table]
  change (encodeAll [] values).2.length < 2 ^ 31
  omega

/-- A message between workers: the reader follows the words of the writer and has its
string table. -/
theorem worker_feeds (nativeOrder : ByteOrder) {values : List (Value S)}
    (inRange : 3 + (values.map fun value => value.kind.width).sum ≤ 2 ^ 28) :
    ∃ fresh writer data reader spare, StreamWriter.new nativeOrder = .ok fresh ∧
      StreamWriter.writeAll nativeOrder fresh values = .ok writer ∧
      StreamWriter.getWorkerData writer = .ok data ∧
      StreamReader.ofWorkerData nativeOrder data = .ok reader ∧
      Written nativeOrder writer (encodeAll [] values).1 spare ∧
      Feeds nativeOrder 0 reader ((encodeAll [] values).1 ++ spare) ∧
      reader.strings = (encodeAll [] values).2 ∧ reader.strings.length < 2 ^ 31 := by
  obtain ⟨fresh, writer, spare, creates, writes, written, table, _, stringsBounded⟩ :=
    written_of_new nativeOrder inRange
  obtain ⟨reader, receives, feeds, strings⟩ := feeds_ofWorkerData nativeOrder writer.flags
    writer.version (BitVec.ofNat 32 (encodeAll [] values).1.length)
    ((encodeAll [] values).1 ++ spare) writer.stringTable
  exact ⟨fresh, writer, _, reader, spare, creates, writes, written.getWorkerData, receives, written,
    feeds, strings.trans table, strings ▸ stringsBounded⟩

/-- What is written is read at the other end, through any number of growths, as long
as the buffer stays below 2^31 bytes: the largest one that doubling reaches there
has 2^28 words, three of them in the header. -/
theorem worker_round_trip (nativeOrder : ByteOrder) (values : List (Value S))
    (inRange : 3 + (values.map fun value => value.kind.width).sum ≤ 2 ^ 28) :
    ∃ fresh writer data reader last, StreamWriter.new nativeOrder = .ok fresh ∧
      StreamWriter.writeAll nativeOrder fresh values = .ok writer ∧
      StreamWriter.getWorkerData writer = .ok data ∧
      StreamReader.ofWorkerData nativeOrder data = .ok reader ∧
      reader.readAll (values.map Value.kind) = .ok (values, last) := by
  obtain ⟨fresh, writer, data, reader, spare, creates, writes, sends, receives, _, feeds, strings,
    bounded⟩ := worker_feeds nativeOrder inRange
  rcases feeds.readAll_encodeAll strings bounded with ⟨last, reads⟩
  exact ⟨fresh, writer, data, reader, last, creates, writes, sends, receives, reads⟩

/-- Nine writes, among them a negative `long` and a repeated string. -/
theorem worker_round_trip_mixed :
    ∃ fresh writer data reader last, StreamWriter.new .littleEndian = .ok fresh ∧
      StreamWriter.writeAll .littleEndian fresh
        [.long (-5), .string (some "a"), .string none, .string (some "b"), .string (some "a"),
          .float (.ofBits 0x3fc00000), .boolean true, .byte (-1), .char 65] = .ok writer ∧
      StreamWriter.getWorkerData writer = .ok data ∧
      StreamReader.ofWorkerData .littleEndian data = .ok reader ∧
      reader.readAll [.long, .string, .string, .string, .string, .float, .boolean, .byte, .char] =
        .ok ([.long (-5), .string (some "a"), .string none, .string (some "b"),
          .string (some "a"), .float (.ofBits 0x3fc00000), .boolean true, .byte (-1), .char 65],
          last) :=
  worker_round_trip .littleEndian _ (by decide)

end WebbitGwt.Stream
