import WebbitGwt.Stream.Payload

/-!
# The reader takes the words

A reader whose integer view stands in front of some words, and whose float view
starts where the integer view does, takes values from its buffers as they are taken
from the list of words.  Nothing is said here about where in memory the payload
begins, nor about what follows the words.
-/

namespace WebbitGwt.Stream

open WebbitGwt.Java
open WebbitGwt.Nio

variable {S : Type}

/-- The next words of a reader whose payload begins `base` words into its memory. -/
structure Feeds (order : ByteOrder) (base : Nat) (reader : StreamReader S) (words : List Word) :
    Prop where
  memory_eq : ∃ front back, reader.memory = front ++ order.encode words ++ back ∧
    front.length = 4 * base + 4 * reader.payload.cursor.position
  payload_offset : reader.payload.offset = 4 * base
  payload_order : reader.payload.order = order
  enough : reader.payload.cursor.position + words.length ≤ reader.payload.cursor.limit
  bb_offset : reader.bb.offset + reader.bb.cursor.position = 4 * base
  bb_order : reader.bb.order = order
  floats_enough :
    reader.payload.cursor.position + words.length ≤ reader.bb.cursor.remaining / 4

namespace Feeds

variable {order : ByteOrder} {base : Nat} {reader : StreamReader S} {word : Word}
  {words rest : List Word}

/-- A payload that begins where a byte buffer stands. -/
theorem ofAt {memory : List Byte} {bb : ByteBuffer} (here : ByteBuffer.At order memory bb
      (order.encode words)) (aligned : bb.cursor.position = 4 * base) {payload : IntBuffer}
    (payload_offset : payload.offset = 4 * base) (payload_order : payload.order = order)
    (payload_position : payload.cursor.position = 0)
    (enough : words.length ≤ payload.cursor.limit) (strings : List S) (flags version : JInt) :
    Feeds order base { memory, bb, payload, strings, flags, version } words where
  memory_eq := by
    rcases here.memory_eq with ⟨front, back, memory_eq, position⟩
    exact ⟨front, back, memory_eq, by simp only [position, aligned, payload_position]; rfl⟩
  payload_offset := payload_offset
  payload_order := payload_order
  enough := by simpa only [payload_position, Nat.zero_add] using enough
  bb_offset := by simp only [here.offset_eq, aligned, Nat.zero_add]
  bb_order := here.order_eq
  floats_enough := by
    rcases here.memory_eq with ⟨front, back, memory_eq, position⟩
    have length := congrArg List.length memory_eq
    simp only [List.length_append, ByteOrder.length_encode] at length
    simp only [payload_position, Cursor.remaining, here.limit_eq]
    omega

/-- The word at the position. -/
theorem load (feeds : Feeds order base reader (word :: words)) :
    order.load reader.memory (4 * base + 4 * reader.payload.cursor.position) = word := by
  rcases feeds.memory_eq with ⟨front, back, memory_eq, position⟩
  rw [memory_eq, ← position, ByteOrder.encode_cons, List.append_assoc, List.append_assoc,
    ← List.append_assoc front, order.load_append]

/-- A word less is left after a step of the payload. -/
theorem skip (feeds : Feeds order base reader (word :: words)) (payload : IntBuffer)
    (offset_eq : payload.offset = reader.payload.offset)
    (order_eq : payload.order = reader.payload.order)
    (position_eq : payload.cursor.position = reader.payload.cursor.position + 1)
    (limit_eq : payload.cursor.limit = reader.payload.cursor.limit) :
    Feeds order base { reader with payload := payload } words where
  memory_eq := by
    rcases feeds.memory_eq with ⟨front, back, memory_eq, position⟩
    refine ⟨front ++ order.toBytes word, back, ?_, ?_⟩
    · simp only [memory_eq, ByteOrder.encode_cons, List.append_assoc]
    · rw [List.length_append, ByteOrder.length_toBytes, position, position_eq]
      omega
  payload_offset := offset_eq.trans feeds.payload_offset
  payload_order := order_eq.trans feeds.payload_order
  enough := by
    have enough := feeds.enough
    rw [List.length_cons] at enough
    rw [position_eq, limit_eq]
    omega
  bb_offset := feeds.bb_offset
  bb_order := feeds.bb_order
  floats_enough := by
    have enough := feeds.floats_enough
    rw [List.length_cons] at enough
    change payload.cursor.position + words.length ≤ reader.bb.cursor.remaining / 4
    rw [position_eq]
    omega

/-- The word at the position is read, and the position moves on. -/
theorem get (feeds : Feeds order base reader (word :: words)) :
    ∃ payload, IntBuffer.get reader.memory reader.payload = .ok (word, payload) ∧
      payload.cursor.position = reader.payload.cursor.position + 1 ∧
      payload.cursor.limit = reader.payload.cursor.limit ∧
      Feeds order base { reader with payload := payload } words := by
  have enough : reader.payload.cursor.position + 1 ≤ reader.payload.cursor.limit := by
    have enough := feeds.enough
    rw [List.length_cons] at enough
    omega
  refine ⟨reader.payload.withCursor (reader.payload.cursor.skip 1 enough), ?_, rfl, rfl,
    feeds.skip _ rfl rfl rfl rfl⟩
  rw [IntBuffer.get, Cursor.advance_of_le enough, ok_bind, IntBuffer.address,
    feeds.payload_offset, feeds.payload_order, feeds.load]
  rfl

theorem readInt (feeds : Feeds order base reader (word :: words)) :
    ∃ next, reader.readInt = .ok (word, next) ∧ Feeds order base next words ∧
      next.strings = reader.strings := by
  rcases feeds.get with ⟨payload, gets, _, _, feedsNext⟩
  refine ⟨_, ?_, feedsNext, rfl⟩
  rw [StreamReader.readInt, gets]
  rfl

/-- A float view made now has the word at the same index. -/
theorem readFloat (feeds : Feeds order base reader (word :: words)) :
    ∃ next, reader.readFloat = .ok (.ofBits word, next) ∧ Feeds order base next words ∧
      next.strings = reader.strings := by
  have enough : reader.payload.cursor.position + 1 ≤ reader.payload.cursor.limit := by
    have enough := feeds.enough
    rw [List.length_cons] at enough
    omega
  have inRange : reader.payload.cursor.position <
      (ByteBuffer.asFloatBuffer reader.bb).cursor.limit := by
    have floats := feeds.floats_enough
    rw [List.length_cons] at floats
    change _ < reader.bb.cursor.remaining / 4
    omega
  have loaded : (ByteBuffer.asFloatBuffer reader.bb).order.load reader.memory
      (IntBuffer.address (ByteBuffer.asFloatBuffer reader.bb) reader.payload.cursor.position) =
        word := by
    change reader.bb.order.load reader.memory (reader.bb.offset + reader.bb.cursor.position + _) = _
    rw [feeds.bb_order, feeds.bb_offset, feeds.load]
  refine ⟨_, ?_, feeds.skip (reader.payload.withCursor
    { reader.payload.cursor with
      position := reader.payload.cursor.position + 1
      position_le := enough }) rfl rfl rfl rfl, rfl⟩
  simp only [StreamReader.readFloat, Buffer.setPosition_of_le enough, ok_bind, IntBuffer.getAt,
    Cursor.checkIndex, if_pos inRange, loaded, pure_bind]
  rfl

/-- Three words make a `long`. -/
theorem readLong {first second third : Word}
    (feeds : Feeds order base reader (first :: second :: third :: words)) :
    ∃ next, reader.readLong = .ok (joinLong first second third, next) ∧
      Feeds order base next words ∧ next.strings = reader.strings := by
  rcases feeds.readInt with ⟨afterFirst, readFirst, feedsSecond, sameFirst⟩
  rcases feedsSecond.readInt with ⟨afterSecond, readSecond, feedsThird, sameSecond⟩
  rcases feedsThird.readInt with ⟨next, readThird, feedsNext, sameThird⟩
  refine ⟨next, ?_, feedsNext, sameThird.trans (sameSecond.trans sameFirst)⟩
  simp only [StreamReader.readLong, readFirst, readSecond, readThird, ok_bind]
  rfl

/-- Reads from the buffers follow the reads from the words. -/
theorem read {kind : Kind} {value : Value S} (feeds : Feeds order base reader words)
    (decoded : kind.decode reader.strings words = some (value, rest)) :
    ∃ next, reader.read kind = .ok (value, next) ∧ Feeds order base next rest ∧
      next.strings = reader.strings := by
  rcases words with _ | ⟨first, words⟩
  · cases kind <;> cases decoded
  · cases kind
    case float =>
      cases decoded
      rcases feeds.readFloat with ⟨next, reads, feedsNext, same⟩
      refine ⟨next, ?_, feedsNext, same⟩
      simp only [StreamReader.read, reads, ok_bind]
      rfl
    case long | double =>
      rcases words with _ | ⟨second, _ | ⟨third, words⟩⟩
      · cases decoded
      · cases decoded
      · cases decoded
        rcases feeds.readLong with ⟨next, reads, feedsNext, same⟩
        refine ⟨next, ?_, feedsNext, same⟩
        simp only [StreamReader.read, StreamReader.readDouble, reads, ok_bind]
        rfl
    case string =>
      cases decoded
      rcases feeds.readInt with ⟨next, reads, feedsNext, same⟩
      refine ⟨next, ?_, feedsNext, same⟩
      simp only [StreamReader.read, StreamReader.readString, reads, ok_bind,
        StreamReader.getString, same]
      rfl
    all_goals
      cases decoded
      rcases feeds.readInt with ⟨next, reads, feedsNext, same⟩
      refine ⟨next, ?_, feedsNext, same⟩
      simp only [StreamReader.read, StreamReader.readBoolean, StreamReader.readByte,
        StreamReader.readChar, StreamReader.readShort, reads, ok_bind]
      rfl

/-- And so do sequences of reads. -/
theorem readAll {kinds : List Kind} {values : List (Value S)}
    (feeds : Feeds order base reader words)
    (decoded : decodeAll reader.strings kinds words = some (values, rest)) :
    ∃ next, reader.readAll kinds = .ok (values, next) ∧ Feeds order base next rest ∧
      next.strings = reader.strings := by
  induction kinds generalizing reader words values with
  | nil =>
      cases decoded
      exact ⟨reader, rfl, feeds, rfl⟩
  | cons kind kinds ih =>
      rcases Option.bind_eq_some_iff.mp decoded with ⟨⟨value, middleWords⟩, first, decoded⟩
      rcases Option.bind_eq_some_iff.mp decoded with ⟨⟨others, last⟩, later, decoded⟩
      cases decoded
      rcases feeds.read first with ⟨middle, readFirst, feedsMiddle, sameFirst⟩
      rw [← sameFirst] at later
      rcases ih feedsMiddle later with ⟨next, readRest, feedsNext, sameRest⟩
      refine ⟨next, ?_, feedsNext, sameRest.trans sameFirst⟩
      simp only [StreamReader.readAll, readFirst, readRest, ok_bind]
      rfl

/-- The values that were written are read back, if the string table came along. -/
theorem readAll_encodeAll [DecidableEq S] {values : List (Value S)} {spare : List Word}
    (feeds : Feeds order base reader ((encodeAll [] values).1 ++ spare))
    (strings : reader.strings = (encodeAll [] values).2)
    (bounded : reader.strings.length < 2 ^ 31) :
    ∃ next, reader.readAll (values.map Value.kind) = .ok (values, next) := by
  have decoded := decodeAll_encodeAll spare (by rw [strings]) bounded
  rcases feeds.readAll decoded with ⟨next, reads, _, _⟩
  exact ⟨next, reads⟩

end Feeds

end WebbitGwt.Stream
