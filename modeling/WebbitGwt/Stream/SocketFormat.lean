import WebbitGwt.Stream.SocketData
import WebbitGwt.Stream.WorkerFormat

/-!
# The socket format, end to end

The pushed chunks put header, words and string section side by side.  The reader
finds the words whatever the strings are; of a string it takes as many bytes as the
string has UTF-16 units.
-/

namespace WebbitGwt.Stream

open WebbitGwt.Java
open WebbitGwt.Nio

/-! ## What is sent -/

/-- The strings as they lie in the stream, each after its length. -/
def stringBytes (order : ByteOrder) (strings : List JString) : List Byte :=
  strings.flatMap fun string =>
    order.toBytes (BitVec.ofNat 32 string.length) ++ string.utf8

/-- The optional string section. -/
def stringSection (order : ByteOrder) (strings : List JString) : List Byte :=
  if strings.isEmpty then
    []
  else
    order.toBytes (BitVec.ofNat 32 strings.length) ++ stringBytes order strings

theorem bytes_pushStrings (order : ByteOrder) (strings : List JString) :
    ((StreamWriter.pushStrings order strings).flatMap fun push => push.chunk.bytes) =
      stringBytes order strings := by
  induction strings with
  | nil => rfl
  | cons string strings ih =>
      rw [StreamWriter.pushStrings, List.flatMap_cons, List.flatMap_cons, ih, stringBytes,
        stringBytes, List.flatMap_cons, List.append_assoc]
      rfl

/-- Further pushes may come before. -/
theorem Finished.cons {pushes : List Push} (finished : Finished pushes) (chunk : Chunk) :
    Finished (⟨chunk, false⟩ :: pushes) := by
  rcases finished with ⟨front, final, rfl, notLast⟩
  refine ⟨⟨chunk, false⟩ :: front, final, rfl, ?_⟩
  rintro push (_ | ⟨_, member⟩)
  · rfl
  · exact notLast push member

theorem finished_singleton (chunk : Chunk) : Finished [⟨chunk, true⟩] :=
  ⟨[], chunk, rfl, nofun⟩

theorem finished_pushStrings (order : ByteOrder) (string : JString) (strings : List JString) :
    Finished (StreamWriter.pushStrings order (string :: strings)) := by
  induction strings generalizing string with
  | nil => exact (finished_singleton _).cons _
  | cons next strings ih => exact ((ih next).cons _).cons _

variable {nativeOrder : ByteOrder} {writer : StreamWriter JString} {words spare : List Word}

/-- The view of the byte buffer that is pushed has the bounds of the payload. -/
theorem Written.cutBytes (written : Written nativeOrder writer words spare) :
    ∃ limited rewound, Buffer.setLimit writer.bb ((3 + words.length) <<< 2) = .ok limited ∧
      Buffer.setPosition limited (0 <<< 2) = .ok rewound ∧
      ByteBuffer.slice rewound =
        { offset := 0, order := .bigEndian, cursor := .new (4 * (3 + words.length)) } := by
  have shifted : (3 + words.length) <<< 2 = 4 * (3 + words.length) := by
    rw [Nat.shiftLeft_eq]
    exact Nat.mul_comm _ _
  have inCapacity : (3 + words.length) <<< 2 ≤ writer.bb.cursor.capacity := by
    rw [written.bb_eq, Cursor.new_capacity, written.length_memory, shifted]
    omega
  refine ⟨_, _, Buffer.setLimit_of_le inCapacity, Buffer.setPosition_of_le (Nat.zero_le _), ?_⟩
  simp only [ByteBuffer.slice, ByteBuffer.withOrder, Buffer.slice, Buffer.withCursor,
    Cursor.remaining, written.bb_eq, Nat.mul_zero, Nat.add_zero, Nat.sub_zero, shifted]

/-- The pushes one by one: header and words, and the string section if there is one. -/
theorem Written.socketPushes_eq (written : Written nativeOrder writer words spare) :
    StreamWriter.socketPushes nativeOrder writer =
      .ok (⟨.buffer (nativeOrder.encode (writer.flags :: writer.version ::
          BitVec.ofNat 32 words.length :: words)), writer.stringTable.isEmpty⟩ ::
        if writer.stringTable.isEmpty then []
        else ⟨.buffer (nativeOrder.toBytes (BitVec.ofNat 32 writer.stringTable.length)), false⟩ ::
          StreamWriter.pushStrings nativeOrder writer.stringTable) := by
  rcases written.cutBytes with ⟨limited, rewound, limits, rewinds, sliced⟩
  have window : ByteBuffer.window
      (nativeOrder.encode (writer.flags :: writer.version :: BitVec.ofNat 32 words.length ::
        (words ++ spare)))
      { offset := 0, order := .bigEndian, cursor := .new (4 * (3 + words.length)) } =
      nativeOrder.encode (writer.flags :: writer.version :: BitVec.ofNat 32 words.length ::
        words) := by
    have length : (nativeOrder.encode (writer.flags :: writer.version ::
        BitVec.ofNat 32 words.length :: words)).length = 4 * (3 + words.length) := by
      rw [ByteOrder.length_encode]
      simp only [List.length_cons]
      omega
    simp only [← List.cons_append, ByteOrder.encode_append]
    rw [ByteBuffer.window, List.drop_zero, Cursor.new_capacity, ← length, List.take_left]
  simp only [StreamWriter.socketPushes, written.finish, ok_bind, Cursor.new_limit,
    Cursor.new_position, limits, rewinds, sliced, window]
  cases writer.stringTable <;> rfl

/-- The pushed chunks make up what has been written and the string section. -/
theorem Written.socketPushes (written : Written nativeOrder writer words spare) :
    ∃ pushes, StreamWriter.socketPushes nativeOrder writer = .ok pushes ∧ Finished pushes ∧
      (pushes.flatMap fun push => push.chunk.bytes) =
        nativeOrder.encode (writer.flags :: writer.version :: BitVec.ofNat 32 words.length ::
          words) ++ stringSection nativeOrder writer.stringTable := by
  refine ⟨_, written.socketPushes_eq, ?_, ?_⟩
  · cases writer.stringTable with
    | nil => exact finished_singleton _
    | cons string strings => exact ((finished_pushStrings nativeOrder string strings).cons _).cons _
  · cases writer.stringTable with
    | nil => simp [stringSection, Chunk.bytes]
    | cons string strings =>
        simp only [List.isEmpty_cons, Bool.false_eq_true, if_false, List.flatMap_cons,
          bytes_pushStrings]
        rfl

/-- What a receiver inflates. -/
theorem Written.getSocketData (written : Written nativeOrder writer words spare) (pako : Pako) :
    ∃ data, StreamWriter.getSocketData pako nativeOrder writer = .ok data ∧
      pako.inflate data =
        nativeOrder.encode (writer.flags :: writer.version :: BitVec.ofNat 32 words.length ::
          words) ++ stringSection nativeOrder writer.stringTable := by
  rcases written.socketPushes with ⟨pushes, pushed, finished, bytes⟩
  refine ⟨pako.deflate pushes, ?_, (pako.inflate_deflate pushes finished).trans bytes⟩
  rw [StreamWriter.getSocketData, pushed]
  rfl

/-! ## What is received -/

/-- A reader of strings takes, of each string, as many bytes as it has units. -/
theorem readStrings_cons (decoder : Utf8Decoder) {order : ByteOrder} {memory : List Byte}
    {bb : ByteBuffer} {string : JString} {strings : List JString}
    (here : ByteBuffer.At order memory bb (stringBytes order (string :: strings))) (count : Nat) :
    ∃ next, ByteBuffer.At order memory next
        (string.utf8.drop string.length ++ stringBytes order strings) ∧
      StreamReader.readStrings decoder memory bb (count + 1) =
        match decoder.decode (string.utf8.take string.length) with
        | none => .error .illegalArgument
        | some first => do
            let (others, bb) ← StreamReader.readStrings decoder memory next count
            return (first :: others, bb) := by
  rw [stringBytes, List.flatMap_cons, List.append_assoc] at here
  rcases here.getInt with ⟨afterLength, getsLength, here⟩
  have toNat_eq := toNat_ofNat_of_lt string.length_lt_two_pow
  have notNegative : (BitVec.ofNat 32 string.length).slt 0 = false := by
    rw [BitVec.slt, toInt_ofNat_of_lt string.length_lt_two_pow]
    exact decide_eq_false (Int.not_lt.mpr (Int.natCast_nonneg _))
  have taken : (string.utf8.take string.length).length = string.length :=
    List.length_take_of_le string.length_le_length_utf8
  rw [← List.take_append_drop string.length string.utf8, List.append_assoc] at here
  rcases here.getBytes with ⟨next, getsBytes, here⟩
  rw [taken] at getsBytes
  refine ⟨next, here, ?_⟩
  simp only [StreamReader.readStrings, getsLength, ok_bind, notNegative, Bool.false_eq_true,
    if_false, toNat_eq, getsBytes]
  cases decoder.decode (string.utf8.take string.length) <;> rfl

/-- ASCII strings are read back. -/
theorem readStrings_of_ascii (decoder : Utf8Decoder) {order : ByteOrder} {memory : List Byte}
    {strings : List JString} (ascii : ∀ string ∈ strings, string.IsAscii) {bb : ByteBuffer}
    (here : ByteBuffer.At order memory bb (stringBytes order strings)) :
    ∃ next, StreamReader.readStrings decoder memory bb strings.length = .ok (strings, next) ∧
      ByteBuffer.At order memory next [] := by
  induction strings generalizing bb with
  | nil => exact ⟨bb, rfl, here⟩
  | cons string strings ih =>
      rw [List.forall_mem_cons] at ascii
      have length := (string.length_eq_length_utf8_iff).mpr ascii.1
      rcases readStrings_cons decoder here strings.length with ⟨middle, rest, reads⟩
      rw [length, List.drop_length, List.nil_append] at rest
      rcases ih ascii.2 rest with ⟨next, readsRest, done⟩
      refine ⟨next, ?_, done⟩
      rw [List.length_cons, reads, length, List.take_length, decoder.decode_utf8, readsRest]
      rfl

/-- And no others are: the first string that is not ASCII is cut short. -/
theorem ascii_of_readStrings (decoder : Utf8Decoder) {order : ByteOrder} {memory : List Byte}
    {strings : List JString} {bb next : ByteBuffer}
    (here : ByteBuffer.At order memory bb (stringBytes order strings))
    (reads : StreamReader.readStrings decoder memory bb strings.length = .ok (strings, next)) :
    ∀ string ∈ strings, string.IsAscii := by
  induction strings generalizing bb with
  | nil => exact nofun
  | cons string strings ih =>
      rcases readStrings_cons decoder here strings.length with ⟨middle, rest, reads_eq⟩
      rw [List.length_cons, reads_eq] at reads
      cases decoded : decoder.decode (string.utf8.take string.length) with
      | none =>
          rw [decoded] at reads
          cases reads
      | some first =>
          rw [decoded] at reads
          rcases bind_eq_ok.mp reads with ⟨⟨others, last⟩, readsRest, same⟩
          cases same
          have whole := decoder.eq_utf8_of_prefix _ _ (List.take_prefix _ _) decoded
          have length : string.length = string.utf8.length := by
            have taken := List.length_take_of_le string.length_le_length_utf8
            rw [whole] at taken
            exact taken.symm
          rw [length, List.drop_length, List.nil_append] at rest
          rw [List.forall_mem_cons]
          exact ⟨(string.length_eq_length_utf8_iff).mp length, ih rest readsRest⟩

/-- The number of strings is one more word behind the payload. -/
theorem encode_stringSection_cons (order : ByteOrder) (words : List Word) (string : JString)
    (strings : List JString) :
    order.encode words ++ stringSection order (string :: strings) =
      order.encode (words ++ [BitVec.ofNat 32 (string :: strings).length]) ++
        stringBytes order (string :: strings) := by
  rw [stringSection, if_neg (by simp), ByteOrder.encode_append, List.append_assoc]
  simp

/-- The constructor, up to the strings: it cuts the payload to the length in the
header, and stands in front of the strings to read as many as were written. -/
theorem ofSocketData_eq (pako : Pako) (decoder : Utf8Decoder) (order : ByteOrder)
    {data : pako.Result} {first second : Word} {words : List Word} {strings : List JString}
    (inflates : pako.inflate data = order.encode (first :: second ::
      BitVec.ofNat 32 words.length :: words) ++ stringSection order strings)
    (wordsBounded : words.length < 2 ^ 31) (stringsBounded : strings.length < 2 ^ 31) :
    ∃ bb payload, ByteBuffer.At order (pako.inflate data) bb (stringBytes order strings) ∧
      payload.offset = 12 ∧ payload.order = order ∧ payload.cursor.position = 0 ∧
      payload.cursor.limit = words.length ∧
      StreamReader.ofSocketData pako decoder order data = (do
        let (strings, bb) ← StreamReader.readStrings decoder (pako.inflate data) bb strings.length
        let bb ← Buffer.setPosition bb (3 <<< 2)
        return { memory := pako.inflate data, bb, payload, strings, flags := second,
                 version := first }) := by
  obtain ⟨_, _, ints, getFirst, getSecond, getThird, position, limit, feeds⟩ :=
    reads_header inflates strings second first
  have length : (pako.inflate data).length / 4 =
      3 + words.length + (stringSection order strings).length / 4 := by
    rw [inflates, List.length_append, ByteOrder.length_encode]
    simp only [List.length_cons]
    omega
  rw [length] at limit
  have inCapacity : words.length ≤ ints.slice.cursor.capacity := by
    simp only [Buffer.slice, Cursor.new_capacity, Cursor.remaining, position, limit]
    omega
  obtain ⟨payload, limits, payload_offset, payload_order, payload_position, payload_limit⟩ :
      ∃ payload, Buffer.setLimit ints.slice words.length = .ok payload ∧ payload.offset = 12 ∧
        payload.order = order ∧ payload.cursor.position = 0 ∧
        payload.cursor.limit = words.length := by
    have start : ints.offset = 0 := feeds.payload_offset
    refine ⟨_, Buffer.setLimit_of_le inCapacity, ?_, feeds.payload_order, Nat.zero_min _, rfl⟩
    simp only [Buffer.withCursor_offset, Buffer.slice, position, start]
  have opens : ByteBuffer.At order (pako.inflate data)
      (ByteBuffer.withOrder (ByteBuffer.wrap (pako.inflate data)) order) [] :=
    .start order [] (pako.inflate data)
  cases strings with
  | nil =>
      have noMore : ¬3 + words.length < ints.cursor.limit := by
        rw [limit, stringSection]
        simp
      refine ⟨_, payload, opens, payload_offset, payload_order, payload_position, payload_limit, ?_⟩
      simp only [StreamReader.ofSocketData, getFirst, getSecond, getThird, ok_bind,
        toNat_ofNat_of_lt wordsBounded, limits, if_neg noMore]
      rfl
  | cons string strings =>
      let table := first :: second :: BitVec.ofNat 32 words.length ::
        (words ++ [BitVec.ofNat 32 (string :: strings).length])
      have layout : pako.inflate data =
          order.encode table ++ stringBytes order (string :: strings) :=
        inflates.trans (encode_stringSection_cons order _ string strings)
      have inRange : 3 + words.length < ints.cursor.limit := by
        rw [limit, stringSection, if_neg (by simp), List.length_append, ByteOrder.length_toBytes]
        omega
      have tableLength : table.length = 4 + words.length := by
        simp only [table, List.length_cons, List.length_append, List.length_nil]
        omega
      have count : IntBuffer.getAt (pako.inflate data) ints (3 + words.length) =
          .ok (BitVec.ofNat 32 (string :: strings).length) := by
        have got := IntBuffer.getAt_eq feeds.payload_offset inRange
          (show 3 + words.length < table.length by omega) (stringBytes order (string :: strings))
        rw [feeds.payload_order, ← layout] at got
        rw [got]
        simp [table, Nat.add_comm 3]
      rw [← List.append_nil (order.encode table ++ _)] at layout
      rcases opens.setPosition layout with ⟨bb, positions, _, here⟩
      rw [ByteOrder.length_encode, tableLength, Nat.mul_comm,
        ← Nat.shiftLeft_eq (4 + words.length) 2] at positions
      refine ⟨bb, payload, here, payload_offset, payload_order, payload_position, payload_limit, ?_⟩
      simp only [StreamReader.ofSocketData, getFirst, getSecond, getThird, ok_bind,
        toNat_ofNat_of_lt wordsBounded, limits, if_pos inRange, count, positions,
        toInt_ofNat_of_lt stringsBounded, Int.toNat_natCast]

section Received

variable {pako : Pako} {order : ByteOrder} {data : pako.Result} {first second : Word}
  {strings : List JString} (decoder : Utf8Decoder)
  (inflates : pako.inflate data = order.encode (first :: second ::
    BitVec.ofNat 32 words.length :: words) ++ stringSection order strings)
  (wordsBounded : words.length < 2 ^ 31) (stringsBounded : strings.length < 2 ^ 31)

include inflates wordsBounded stringsBounded

/-- If the strings are ASCII, the reader has them all, and stands at the words. -/
theorem ofSocketData_of_ascii (ascii : ∀ string ∈ strings, string.IsAscii) :
    ∃ reader, StreamReader.ofSocketData pako decoder order data = .ok reader ∧
      Feeds order 3 reader words ∧ reader.strings = strings := by
  obtain ⟨table, payload, here, payload_offset, payload_order, payload_position, payload_limit,
    opens⟩ := ofSocketData_eq pako decoder order inflates wordsBounded stringsBounded
  rcases readStrings_of_ascii decoder ascii here with ⟨afterStrings, reads, done⟩
  have layout : pako.inflate data =
      order.encode [first, second, BitVec.ofNat 32 words.length] ++ order.encode words ++
        stringSection order strings := by
    rw [inflates, ← order.encode_append]
    rfl
  rcases done.setPosition layout with ⟨bb, positions, position, atWords⟩
  rw [ByteOrder.length_encode] at positions position
  refine ⟨_, ?_, .ofAt atWords position payload_offset payload_order payload_position
    payload_limit.ge strings second first, rfl⟩
  rw [opens, reads, ok_bind]
  exact congrArg (· >>= _) positions

/-- If the reader has them all, they are ASCII. -/
theorem ascii_of_ofSocketData {reader : StreamReader JString}
    (receives : StreamReader.ofSocketData pako decoder order data = .ok reader)
    (same : reader.strings = strings) : ∀ string ∈ strings, string.IsAscii := by
  obtain ⟨table, payload, here, _, _, _, _, opens⟩ :=
    ofSocketData_eq pako decoder order inflates wordsBounded stringsBounded
  rw [opens] at receives
  rcases bind_eq_ok.mp receives with ⟨⟨others, afterStrings⟩, reads, receives⟩
  rcases bind_eq_ok.mp receives with ⟨bb, _, receives⟩
  cases receives
  obtain rfl : others = strings := same
  exact ascii_of_readStrings decoder here reads

end Received

/-! ## Round trip -/

/-- A message through a socket, if all strings are ASCII: the reader follows the words
of the writer and has its string table. -/
theorem socket_feeds (pako : Pako) (decoder : Utf8Decoder)
    (written : Written nativeOrder writer words spare) (wordsBounded : words.length < 2 ^ 31)
    (stringsBounded : writer.stringTable.length < 2 ^ 31)
    (ascii : ∀ string ∈ writer.stringTable, string.IsAscii) :
    ∃ data reader, StreamWriter.getSocketData pako nativeOrder writer = .ok data ∧
      StreamReader.ofSocketData pako decoder nativeOrder data = .ok reader ∧
      Feeds nativeOrder 3 reader words ∧ reader.strings = writer.stringTable := by
  rcases written.getSocketData pako with ⟨data, sends, inflates⟩
  obtain ⟨reader, receives, feeds, strings⟩ :=
    ofSocketData_of_ascii decoder inflates wordsBounded stringsBounded ascii
  exact ⟨data, reader, sends, receives, feeds, strings⟩

/-- What is written is read at the other end, from the same string table. -/
def SocketRoundTrip (pako : Pako) (decoder : Utf8Decoder) (nativeOrder : ByteOrder)
    (values : List (Value JString)) : Prop :=
  ∃ fresh writer data reader last, StreamWriter.new nativeOrder = .ok fresh ∧
    StreamWriter.writeAll nativeOrder fresh values = .ok writer ∧
    StreamWriter.getSocketData pako nativeOrder writer = .ok data ∧
    StreamReader.ofSocketData pako decoder nativeOrder data = .ok reader ∧
    reader.readAll (values.map Value.kind) = .ok (values, last) ∧
    reader.strings = writer.stringTable

theorem socketRoundTrip_of_ascii (pako : Pako) (decoder : Utf8Decoder) (nativeOrder : ByteOrder)
    {values : List (Value JString)}
    (inRange : 3 + (values.map fun value => value.kind.width).sum ≤ 2 ^ 28)
    (ascii : ∀ string, .string (some string) ∈ values → string.IsAscii) :
    SocketRoundTrip pako decoder nativeOrder values := by
  obtain ⟨fresh, writer, spare, creates, writes, written, table, wordsBounded, stringsBounded⟩ :=
    written_of_new nativeOrder inRange
  rw [← forall_mem_encodeAll, ← table] at ascii
  obtain ⟨data, reader, sends, receives, feeds, strings⟩ :=
    socket_feeds pako decoder written wordsBounded stringsBounded ascii
  rw [← List.append_nil (encodeAll [] values).1] at feeds
  obtain ⟨last, reads⟩ :=
    feeds.readAll_encodeAll (strings.trans table) (by rw [strings]; exact stringsBounded)
  exact ⟨fresh, writer, data, reader, last, creates, writes, sends, receives, reads, strings⟩

theorem ascii_of_socketRoundTrip {pako : Pako} {decoder : Utf8Decoder} {nativeOrder : ByteOrder}
    {values : List (Value JString)}
    (inRange : 3 + (values.map fun value => value.kind.width).sum ≤ 2 ^ 28)
    (trip : SocketRoundTrip pako decoder nativeOrder values) :
    ∀ string, .string (some string) ∈ values → string.IsAscii := by
  rcases trip with ⟨fresh, writer, data, reader, last, creates, writes, sends, receives, _, strings⟩
  obtain ⟨_, _, spare, created, wrote, written, table, wordsBounded, stringsBounded⟩ :=
    written_of_new nativeOrder inRange
  cases created.symm.trans creates
  cases wrote.symm.trans writes
  rcases written.getSocketData pako with ⟨_, sent, inflates⟩
  cases sent.symm.trans sends
  rw [← forall_mem_encodeAll, ← table]
  exact ascii_of_ofSocketData decoder inflates wordsBounded stringsBounded receives strings

/-- A sequence of writes survives the way through a socket if and only if every string
in it is ASCII: lengths are written in UTF-16 units and read as bytes. -/
theorem socket_round_trip_iff (pako : Pako) (decoder : Utf8Decoder) (nativeOrder : ByteOrder)
    (values : List (Value JString))
    (inRange : 3 + (values.map fun value => value.kind.width).sum ≤ 2 ^ 28) :
    SocketRoundTrip pako decoder nativeOrder values ↔
      ∀ string, .string (some string) ∈ values → string.IsAscii :=
  ⟨ascii_of_socketRoundTrip inRange, socketRoundTrip_of_ascii pako decoder nativeOrder inRange⟩

/-- A message with a null, an empty and a repeated string. -/
theorem socket_round_trip_iff_hello :
    SocketRoundTrip .stored .strict .littleEndian
      [.string (some ⟨"hello", by decide⟩), .string none, .string (some ⟨"", by decide⟩),
        .double (.ofBits 0x3ff8000000000000), .string (some ⟨"hello", by decide⟩)] := by
  apply (socket_round_trip_iff .stored .strict .littleEndian _ (by decide)).mpr
  intro string member
  simp only [List.mem_cons, Value.string.injEq, Option.some.injEq, List.not_mem_nil, or_false,
    reduceCtorEq, false_or] at member
  rcases member with rfl | rfl | rfl <;> decide

/-- One accented letter has one UTF-16 unit and two bytes. -/
theorem socket_loses_eAcute :
    ¬SocketRoundTrip .stored .strict .littleEndian [.string (some ⟨"\u00e9", by decide⟩)] := by
  intro trip
  have ascii := ascii_of_socketRoundTrip (by decide) trip _ (List.mem_singleton_self _)
  exact absurd ascii (by decide)

end WebbitGwt.Stream
