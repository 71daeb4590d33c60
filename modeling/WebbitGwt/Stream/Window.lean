import WebbitGwt.Stream.Capacity
import WebbitGwt.Stream.WorkerFormat

/-!
# The window of a worker message

`getWorkerData` cuts the payload to what has been written and stores its length, but
passes on the buffer behind it, with all the room that was left.  The reader's payload
ends where the buffer does.
-/

namespace WebbitGwt.Stream

open WebbitGwt.Java
open WebbitGwt.Nio

variable {S : Type}

/-- The assertion of the reader's constructor: the third word of the header is what
remains behind it. -/
def StreamReader.LengthAsserted (nativeOrder : ByteOrder) (data : WorkerData S)
    (reader : StreamReader S) : Prop :=
  IntBuffer.getAt data.buffer
      (ByteBuffer.asIntBuffer (ByteBuffer.withOrder (ByteBuffer.wrap data.buffer) nativeOrder)) 2 =
    .ok (BitVec.ofNat 32 reader.payload.cursor.remaining)

/-- The reader of a message sees the words that were written, of which there are
`count`, and no others: the length is the one that is asserted, and a read that reaches
beyond the last word fails, whatever has been read before. -/
structure PayloadWindow (nativeOrder : ByteOrder) (data : WorkerData S) (reader : StreamReader S)
    (count : Nat) : Prop where
  asserted : reader.LengthAsserted nativeOrder data
  beyond : ∀ kinds values last kind, reader.readAll kinds = .ok (values, last) →
    count < (kinds.map Kind.width).sum + kind.width → ∃ exception, last.read kind = .error exception

namespace StreamReader

variable {reader next : StreamReader S}

/-- A read passes over some words within the limit. -/
structure Passes (reader next : StreamReader S) (width : Nat) : Prop where
  position_eq : next.payload.cursor.position = reader.payload.cursor.position + width
  limit_eq : next.payload.cursor.limit = reader.payload.cursor.limit

theorem Passes.trans {middle : StreamReader S} {first second : Nat}
    (before : Passes reader middle first) (after : Passes middle next second) :
    Passes reader next (first + second) where
  position_eq := by rw [after.position_eq, before.position_eq, Nat.add_assoc]
  limit_eq := after.limit_eq.trans before.limit_eq

theorem passes_readInt {value : JInt} (reads : reader.readInt = .ok (value, next)) :
    Passes reader next 1 := by
  rcases bind_eq_ok.mp reads with ⟨⟨word, payload⟩, gets, reads⟩
  rcases bind_eq_ok.mp gets with ⟨cursor, advances, gets⟩
  cases gets
  cases reads
  unfold Cursor.advance at advances
  split at advances
  · cases advances
    exact ⟨rfl, rfl⟩
  · cases advances

theorem passes_readFloat {value : JFloat} (reads : reader.readFloat = .ok (value, next)) :
    Passes reader next 1 := by
  rcases bind_eq_ok.mp reads with ⟨payload, positions, reads⟩
  rcases bind_eq_ok.mp reads with ⟨word, _, reads⟩
  rcases bind_eq_ok.mp positions with ⟨cursor, moves, positions⟩
  cases positions
  cases reads
  unfold Cursor.setPosition at moves
  split at moves
  · cases moves
    exact ⟨rfl, rfl⟩
  · cases moves

theorem passes_readLong {value : JLong} (reads : reader.readLong = .ok (value, next)) :
    Passes reader next 3 := by
  rcases bind_eq_ok.mp reads with ⟨⟨a0, first⟩, readFirst, reads⟩
  rcases bind_eq_ok.mp reads with ⟨⟨a1, second⟩, readSecond, reads⟩
  rcases bind_eq_ok.mp reads with ⟨⟨a2, third⟩, readThird, reads⟩
  have same : (joinLong a0 a1 a2, third) = (value, next) := Except.ok.inj reads
  rw [← (Prod.mk.inj same).2]
  exact ((passes_readInt readFirst).trans (passes_readInt readSecond)).trans
    (passes_readInt readThird)

/-- Every read passes over the words of its type. -/
theorem passes_read {kind : Kind} {value : Value S} (reads : reader.read kind = .ok (value, next)) :
    Passes reader next kind.width := by
  cases kind
  all_goals
    rcases bind_eq_ok.mp reads with ⟨⟨result, last⟩, returns, same⟩
    cases same
  case int => exact passes_readInt returns
  case float => exact passes_readFloat returns
  case long => exact passes_readLong returns
  all_goals
    rcases bind_eq_ok.mp returns with ⟨⟨word, last⟩, converts, same⟩
    cases same
  case double => exact passes_readLong converts
  all_goals exact passes_readInt converts

theorem passes_readAll {kinds : List Kind} {values : List (Value S)}
    (reads : reader.readAll kinds = .ok (values, next)) :
    Passes reader next (kinds.map Kind.width).sum := by
  induction kinds generalizing reader values with
  | nil =>
      cases reads
      exact ⟨rfl, rfl⟩
  | cons kind kinds ih =>
      rcases bind_eq_ok.mp reads with ⟨⟨value, middle⟩, first, reads⟩
      rcases bind_eq_ok.mp reads with ⟨⟨others, last⟩, rest, reads⟩
      cases reads
      rw [List.map_cons, List.sum_cons]
      exact (passes_read first).trans (ih rest)

/-- No read reaches beyond the limit. -/
theorem read_beyond {kinds : List Kind} {values : List (Value S)} {kind : Kind}
    (reads : reader.readAll kinds = .ok (values, next))
    (short : reader.payload.cursor.remaining < (kinds.map Kind.width).sum + kind.width) :
    ∃ exception, next.read kind = .error exception := by
  cases further : next.read kind with
  | error exception => exact ⟨exception, rfl⟩
  | ok result =>
      have passes := (passes_readAll reads).trans (passes_read further)
      have within := result.2.payload.cursor.position_le
      rw [passes.position_eq, passes.limit_eq] at within
      rw [Cursor.remaining] at short
      omega

end StreamReader

/-- The reader of a message: what remains is all there is behind the header, and the
length is read where the assertion looks for it. -/
theorem ofWorkerData_window {nativeOrder : ByteOrder} {first second length : Word}
    {words : List Word} {data : WorkerData S} {reader : StreamReader S}
    (buffer_eq : data.buffer = nativeOrder.encode (first :: second :: length :: words))
    (opens : StreamReader.ofWorkerData nativeOrder data = .ok reader) :
    reader.payload.cursor.remaining = words.length ∧
      (reader.LengthAsserted nativeOrder data ↔ length = BitVec.ofNat 32 words.length) := by
  obtain ⟨_, _, ints, getFirst, getSecond, getThird, position, limit, _⟩ :=
    reads_header (buffer_eq.trans (List.append_nil _).symm) data.strings second first
  have remaining : ints.cursor.remaining = words.length := by
    rw [Cursor.remaining, position, limit, buffer_eq, ByteOrder.length_encode]
    simp only [List.length_cons]
    omega
  simp only [StreamReader.ofWorkerData, StreamReader.ofBuffer, getFirst, getSecond, getThird,
    ok_bind] at opens
  cases opens
  refine ⟨remaining, ?_⟩
  have inLimit : 2 < data.buffer.length / 4 := by
    rw [buffer_eq, ByteOrder.length_encode]
    simp only [List.length_cons]
    omega
  have layout : data.buffer =
      nativeOrder.encode (first :: second :: length :: words) ++ [] := by
    rw [buffer_eq, List.append_nil]
  let ints := ByteBuffer.asIntBuffer
    (ByteBuffer.withOrder (ByteBuffer.wrap data.buffer) nativeOrder)
  have stored : IntBuffer.getAt data.buffer ints 2 = .ok length := by
    have same := congrArg (fun memory => IntBuffer.getAt memory ints 2) layout
    exact same.trans (@IntBuffer.getAt_eq ints (first :: second :: length :: words) 2 rfl inLimit
      (by simp) [])
  rw [StreamReader.LengthAsserted, remaining, stored, Except.ok.injEq]

/-- As many integers as there are words can be read, and one more if there is room
behind them. -/
theorem Feeds.readInts {order : ByteOrder} {base : Nat} {reader : StreamReader S}
    {words spare : List Word} (feeds : Feeds order base reader (words ++ spare)) :
    ∃ values last, reader.readAll (List.replicate words.length .int) = .ok (values, last) ∧
      Feeds order base last spare := by
  induction words generalizing reader with
  | nil => exact ⟨[], reader, rfl, feeds⟩
  | cons word words ih =>
      rcases Feeds.readInt feeds with ⟨next, readsFirst, feedsNext, _⟩
      rcases ih feedsNext with ⟨values, last, readsRest, feedsLast⟩
      refine ⟨.int word :: values, last, ?_, feedsLast⟩
      simp only [List.length_cons, List.replicate_succ, StreamReader.readAll, StreamReader.read,
        readsFirst, ok_bind, pure_bind, readsRest]
      rfl

variable [DecidableEq S]

/-- The reader of a worker message sees the words that were written and no others if and
only if these and the header make up eight times a power of two, so that they fill the
writer's buffer. -/
theorem payload_window_iff {nativeOrder : ByteOrder} {values : List (Value S)}
    {writer : StreamWriter S} (writes : StreamWriter.ofValues nativeOrder values = .ok writer) :
    (∃ data reader, StreamWriter.getWorkerData writer = .ok data ∧
      StreamReader.ofWorkerData nativeOrder data = .ok reader ∧
      PayloadWindow nativeOrder data reader (values.map fun value => value.kind.width).sum) ↔
      ∃ doublings, 3 + (values.map fun value => value.kind.width).sum = 8 * 2 ^ doublings := by
  rcases (Written.ofValues writes).written with ⟨spare, written⟩
  rw [List.nil_append] at written
  have count := length_words_encodeAll [] values
  have full_iff := written.spare_eq_nil_iff writes
  rw [count] at full_iff
  have sends := written.getWorkerData
  obtain ⟨reader, opens, feeds, _⟩ := feeds_ofWorkerData nativeOrder writer.flags writer.version
    (BitVec.ofNat 32 (encodeAll [] values).1.length) ((encodeAll [] values).1 ++ spare)
    writer.stringTable
  rcases ofWorkerData_window rfl opens with ⟨remaining, asserted_iff⟩
  rw [← full_iff]
  constructor
  · rintro ⟨data, other, sends', opens', window⟩
    cases sends.symm.trans sends'
    cases opens.symm.trans opens'
    cases spare with
    | nil => rfl
    | cons first rest =>
        -- the room behind the words is read as one more integer
        exfalso
        rcases feeds.readInts with ⟨values', last, reads, feedsLast⟩
        rcases feedsLast.readInt with ⟨next, readsMore, _, _⟩
        have fails := window.beyond _ _ _ .int reads
          (by rw [List.map_replicate, List.sum_replicate_nat, count]; simp [Kind.width])
        rcases fails with ⟨exception, failed⟩
        simp only [StreamReader.read, readsMore, ok_bind] at failed
        cases failed
  · rintro rfl
    rw [List.append_nil] at remaining sends opens asserted_iff
    refine ⟨_, reader, sends, opens, ?_, ?_⟩
    · exact asserted_iff.mpr rfl
    · intro kinds results last kind reads short
      rw [← count, ← remaining] at short
      exact StreamReader.read_beyond reads short

/-- Five integers fill the first buffer. -/
theorem payload_window_five :
    ∃ writer, StreamWriter.ofValues .littleEndian
        [.int 1, .int 2, .int 3, .int 4, (.int 5 : Value String)] = .ok writer ∧
      ∃ data reader, StreamWriter.getWorkerData writer = .ok data ∧
        StreamReader.ofWorkerData .littleEndian data = .ok reader ∧
        PayloadWindow .littleEndian data reader 5 := by
  obtain ⟨writer, writes⟩ := ofValues_succeeds .littleEndian
    [.int 1, .int 2, .int 3, .int 4, (.int 5 : Value String)] (by decide)
  exact ⟨writer, writes, (payload_window_iff writes).mpr ⟨0, by decide⟩⟩

/-- After one integer four more can be read, all of them zero, and the length is not
asserted. -/
theorem payload_window_exceeded :
    ∃ writer data reader last, StreamWriter.ofValues .littleEndian [(.int 7 : Value String)] =
        .ok writer ∧
      StreamWriter.getWorkerData writer = .ok data ∧
      StreamReader.ofWorkerData .littleEndian data = .ok reader ∧
      reader.readAll [.int, .int] = .ok ([.int 7, .int 0], last) ∧
      ¬ reader.LengthAsserted .littleEndian data ∧ ¬ PayloadWindow .littleEndian data reader 1 := by
  refine ⟨_, _, _, _, rfl, rfl, rfl, rfl, ?_, ?_⟩
  · intro asserted
    cases asserted
  · intro window
    cases window.asserted

end WebbitGwt.Stream
