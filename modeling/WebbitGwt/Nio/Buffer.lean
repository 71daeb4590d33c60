import WebbitGwt.Nio.Bytes

/-!
# Buffers

A buffer is a window into a byte memory with a position, a limit and a capacity,
counted in elements of the buffer's width.  Buffers do not own their memory, so an
operation that touches it is given the memory, and one that changes it returns the
new one.  The operations follow the contract of `java.nio`.
-/

namespace WebbitGwt.Nio

/-- What buffer operations throw, and the making of an array. -/
inductive BufferException
  | bufferUnderflow
  | bufferOverflow
  | indexOutOfBounds
  | illegalArgument
  | negativeArraySize
  deriving DecidableEq, Repr

@[simp]
theorem ok_bind {ε α β : Type} (value : α) (next : α → Except ε β) :
    (.ok value >>= next) = next value := rfl

/-- A computation succeeds when both of its parts do. -/
theorem bind_eq_ok {ε α β : Type} {first : Except ε α} {next : α → Except ε β} {result : β} :
    first >>= next = .ok result ↔ ∃ value, first = .ok value ∧ next value = .ok result := by
  cases first with
  | error exception => exact ⟨nofun, fun ⟨_, isOk, _⟩ => nomatch isOk⟩
  | ok value =>
      constructor
      · intro succeeds
        exact ⟨value, rfl, succeeds⟩
      · rintro ⟨_, ⟨⟩, succeeds⟩
        exact succeeds

/-- Position, limit and capacity. -/
structure Cursor where
  position : Nat
  limit : Nat
  capacity : Nat
  position_le : position ≤ limit
  limit_le : limit ≤ capacity

namespace Cursor

/-- The cursor of a new buffer. -/
def new (capacity : Nat) : Cursor where
  position := 0
  limit := capacity
  capacity := capacity
  position_le := Nat.zero_le _
  limit_le := Nat.le_refl _

@[simp]
theorem new_position (capacity : Nat) : (new capacity).position = 0 := rfl

@[simp]
theorem new_limit (capacity : Nat) : (new capacity).limit = capacity := rfl

@[simp]
theorem new_capacity (capacity : Nat) : (new capacity).capacity = capacity := rfl

def remaining (cursor : Cursor) : Nat :=
  cursor.limit - cursor.position

@[simp]
theorem remaining_new (capacity : Nat) : (new capacity).remaining = capacity := rfl

def hasRemaining (cursor : Cursor) : Bool :=
  cursor.position < cursor.limit

/-- `position(newPosition)` -/
def setPosition (cursor : Cursor) (position : Nat) : Except BufferException Cursor :=
  if position_le : position ≤ cursor.limit then
    .ok { cursor with position := position, position_le := position_le }
  else
    .error .illegalArgument

/-- `limit(newLimit)`: a position beyond the new limit is pulled back. -/
def setLimit (cursor : Cursor) (limit : Nat) : Except BufferException Cursor :=
  if limit_le : limit ≤ cursor.capacity then
    .ok
      { cursor with
        position := min cursor.position limit
        limit := limit
        position_le := Nat.min_le_right _ _
        limit_le := limit_le }
  else
    .error .illegalArgument

def flip (cursor : Cursor) : Cursor where
  position := 0
  limit := cursor.position
  capacity := cursor.capacity
  position_le := Nat.zero_le _
  limit_le := Nat.le_trans cursor.position_le cursor.limit_le

@[simp]
theorem flip_position (cursor : Cursor) : cursor.flip.position = 0 := rfl

@[simp]
theorem flip_limit (cursor : Cursor) : cursor.flip.limit = cursor.position := rfl

/-- Pass over elements that are there. -/
def skip (cursor : Cursor) (count : Nat) (enough : cursor.position + count ≤ cursor.limit) :
    Cursor :=
  { cursor with position := cursor.position + count, position_le := enough }

/-- Pass over elements that are read or written, or fail. -/
def advance (cursor : Cursor) (count : Nat) (exception : BufferException) :
    Except BufferException Cursor :=
  if enough : cursor.position + count ≤ cursor.limit then .ok (cursor.skip count enough)
  else .error exception

@[simp]
theorem skip_position (cursor : Cursor) (count : Nat) (enough) :
    (cursor.skip count enough).position = cursor.position + count := rfl

@[simp]
theorem skip_limit (cursor : Cursor) (count : Nat) (enough) :
    (cursor.skip count enough).limit = cursor.limit := rfl

@[simp]
theorem skip_capacity (cursor : Cursor) (count : Nat) (enough) :
    (cursor.skip count enough).capacity = cursor.capacity := rfl

theorem advance_of_le {cursor : Cursor} {count : Nat}
    (enough : cursor.position + count ≤ cursor.limit) (exception : BufferException) :
    cursor.advance count exception = .ok (cursor.skip count enough) :=
  dif_pos enough

/-- The check of an absolute access. -/
def checkIndex (cursor : Cursor) (index : Nat) : Except BufferException Unit :=
  if index < cursor.limit then .ok () else .error .indexOutOfBounds

end Cursor

/-- A buffer of elements of `width` bytes. -/
structure Buffer (width : Nat) where
  offset : Nat
  order : ByteOrder
  cursor : Cursor

abbrev ByteBuffer := Buffer 1

abbrev IntBuffer := Buffer 4

abbrev FloatBuffer := Buffer 4

namespace Buffer

variable {width : Nat}

/-- Change the cursor only. -/
def withCursor (buffer : Buffer width) (cursor : Cursor) : Buffer width :=
  { buffer with cursor := cursor }

@[simp]
theorem withCursor_offset (buffer : Buffer width) (cursor : Cursor) :
    (buffer.withCursor cursor).offset = buffer.offset := rfl

@[simp]
theorem withCursor_order (buffer : Buffer width) (cursor : Cursor) :
    (buffer.withCursor cursor).order = buffer.order := rfl

@[simp]
theorem withCursor_cursor (buffer : Buffer width) (cursor : Cursor) :
    (buffer.withCursor cursor).cursor = cursor := rfl

def setPosition (buffer : Buffer width) (position : Nat) :
    Except BufferException (Buffer width) := do
  let cursor ← buffer.cursor.setPosition position
  return buffer.withCursor cursor

def setLimit (buffer : Buffer width) (limit : Nat) : Except BufferException (Buffer width) := do
  let cursor ← buffer.cursor.setLimit limit
  return buffer.withCursor cursor

theorem setPosition_of_le {buffer : Buffer width} {position : Nat}
    (position_le : position ≤ buffer.cursor.limit) :
    buffer.setPosition position =
      .ok (buffer.withCursor { buffer.cursor with position := position, position_le }) := by
  rw [setPosition, Cursor.setPosition, dif_pos position_le]
  rfl

theorem setLimit_of_le {buffer : Buffer width} {limit : Nat}
    (limit_le : limit ≤ buffer.cursor.capacity) :
    buffer.setLimit limit =
      .ok (buffer.withCursor
        { buffer.cursor with
          position := min buffer.cursor.position limit
          limit := limit
          position_le := Nat.min_le_right _ _
          limit_le := limit_le }) := by
  rw [setLimit, Cursor.setLimit, dif_pos limit_le]
  rfl

/-- `slice` of a buffer that keeps its byte order. -/
def slice (buffer : Buffer width) : Buffer width where
  offset := buffer.offset + width * buffer.cursor.position
  order := buffer.order
  cursor := .new buffer.cursor.remaining

end Buffer

namespace ByteBuffer

/-- `ByteBuffer.allocate`: zeroed memory, and a buffer on all of it.  A capacity
that is not an `int` is a negative one to the callee. -/
def allocate (capacity : Nat) : Except BufferException (List Byte × ByteBuffer) :=
  if capacity < 2 ^ 31 then
    .ok (List.replicate capacity 0,
      { offset := 0, order := .bigEndian, cursor := .new capacity })
  else
    .error .illegalArgument

theorem allocate_of_lt {capacity : Nat} (inRange : capacity < 2 ^ 31) :
    allocate capacity = .ok (List.replicate capacity 0,
      { offset := 0, order := .bigEndian, cursor := .new capacity }) :=
  if_pos inRange

theorem allocate_eq_ok {capacity : Nat} {memory : List Byte} {buffer : ByteBuffer}
    (allocated : allocate capacity = .ok (memory, buffer)) :
    capacity < 2 ^ 31 ∧ memory = List.replicate capacity 0 ∧
      buffer = { offset := 0, order := .bigEndian, cursor := .new capacity } := by
  unfold allocate at allocated
  split at allocated
  · rename_i inRange
    cases allocated
    exact ⟨inRange, rfl, rfl⟩
  · cases allocated

/-- A buffer on all of a memory. -/
def wrap (memory : List Byte) : ByteBuffer where
  offset := 0
  order := .bigEndian
  cursor := .new memory.length

/-- `order(newOrder)` -/
def withOrder (buffer : ByteBuffer) (order : ByteOrder) : ByteBuffer :=
  { buffer with order := order }

/-- `slice`: the new buffer is big-endian again. -/
def slice (buffer : ByteBuffer) : ByteBuffer :=
  withOrder (Buffer.slice buffer) .bigEndian

/-- `asIntBuffer`, from the position on. -/
def asIntBuffer (buffer : ByteBuffer) : IntBuffer where
  offset := buffer.offset + buffer.cursor.position
  order := buffer.order
  cursor := .new (buffer.cursor.remaining / 4)

/-- The integer view of a whole number of words. -/
theorem asIntBuffer_new (order : ByteOrder) (count : Nat) :
    asIntBuffer { offset := 0, order := order, cursor := .new (4 * count) } =
      { offset := 0, order := order, cursor := .new count } := by
  have remaining : (Cursor.new (4 * count)).remaining / 4 = count := by
    rw [Cursor.remaining_new, Nat.mul_div_cancel_left count (by decide)]
  rw [asIntBuffer, remaining]
  rfl

/-- `asFloatBuffer`, from the position on. -/
def asFloatBuffer (buffer : ByteBuffer) : FloatBuffer :=
  asIntBuffer buffer

/-- The bytes of the typed array behind a buffer. -/
def window (memory : List Byte) (buffer : ByteBuffer) : List Byte :=
  (memory.drop buffer.offset).take buffer.cursor.capacity

/-- `getInt()`, at the position whatever its alignment. -/
def getInt (memory : List Byte) (buffer : ByteBuffer) :
    Except BufferException (Word × ByteBuffer) := do
  let cursor ← buffer.cursor.advance 4 .bufferUnderflow
  return (buffer.order.load memory (buffer.offset + buffer.cursor.position),
    buffer.withCursor cursor)

/-- `get(bytes)`: fill an array of the given length. -/
def getBytes (memory : List Byte) (buffer : ByteBuffer) (count : Nat) :
    Except BufferException (List Byte × ByteBuffer) := do
  let cursor ← buffer.cursor.advance count .bufferUnderflow
  return ((memory.drop (buffer.offset + buffer.cursor.position)).take count,
    buffer.withCursor cursor)

end ByteBuffer

namespace IntBuffer

/-- Where an element lies in memory. -/
def address (buffer : IntBuffer) (index : Nat) : Nat :=
  buffer.offset + 4 * index

/-- `get(index)` -/
def getAt (memory : List Byte) (buffer : IntBuffer) (index : Nat) :
    Except BufferException Word := do
  buffer.cursor.checkIndex index
  return buffer.order.load memory (address buffer index)

/-- `put(index, value)` -/
def putAt (memory : List Byte) (buffer : IntBuffer) (index : Nat) (value : Word) :
    Except BufferException (List Byte) := do
  buffer.cursor.checkIndex index
  return buffer.order.store memory (address buffer index) value

/-- `get()` -/
def get (memory : List Byte) (buffer : IntBuffer) :
    Except BufferException (Word × IntBuffer) := do
  let cursor ← buffer.cursor.advance 1 .bufferUnderflow
  return (buffer.order.load memory (address buffer buffer.cursor.position),
    buffer.withCursor cursor)

/-- `put(value)` -/
def put (memory : List Byte) (buffer : IntBuffer) (value : Word) :
    Except BufferException (List Byte × IntBuffer) := do
  let cursor ← buffer.cursor.advance 1 .bufferOverflow
  return (buffer.order.store memory (address buffer buffer.cursor.position) value,
    buffer.withCursor cursor)

/-- Put a list of values one after the other. -/
def putWords (memory : List Byte) (buffer : IntBuffer) :
    List Word → Except BufferException (List Byte × IntBuffer)
  | [] => .ok (memory, buffer)
  | value :: values => do
      let (memory, buffer) ← put memory buffer value
      putWords memory buffer values

/-- The elements between the position and the limit. -/
def remainingWords (memory : List Byte) (buffer : IntBuffer) : List Word :=
  (List.range buffer.cursor.remaining).map fun index =>
    buffer.order.load memory (address buffer (buffer.cursor.position + index))

/-- `put(source)`, for a source with a memory of its own: nothing is put unless
everything fits. -/
def putBuffer (memory : List Byte) (buffer : IntBuffer) (sourceMemory : List Byte)
    (source : IntBuffer) : Except BufferException (List Byte × IntBuffer) :=
  if source.cursor.remaining ≤ buffer.cursor.remaining then
    putWords memory buffer (remainingWords sourceMemory source)
  else
    .error .bufferOverflow

end IntBuffer

/-! ## Buffers on memory that holds words -/

namespace IntBuffer

/-- An element of a buffer that starts at a word boundary is a word of the memory. -/
theorem load_address {buffer : IntBuffer} {words : List Word} {base index : Nat}
    (aligned : buffer.offset = 4 * base) (bound : base + index < words.length)
    (back : List Byte) :
    buffer.order.load (buffer.order.encode words ++ back) (address buffer index) =
      words[base + index] := by
  rw [address, aligned, ← Nat.mul_add]
  exact buffer.order.load_encode bound back

theorem store_address {buffer : IntBuffer} {words : List Word} {base index : Nat}
    (aligned : buffer.offset = 4 * base) (bound : base + index < words.length)
    (back : List Byte) (value : Word) :
    buffer.order.store (buffer.order.encode words ++ back) (address buffer index) value =
      buffer.order.encode (words.set (base + index) value) ++ back := by
  rw [address, aligned, ← Nat.mul_add]
  exact buffer.order.store_encode bound back value

/-- An absolute get returns a word. -/
theorem getAt_eq {buffer : IntBuffer} {words : List Word} {index : Nat}
    (start : buffer.offset = 0) (inRange : index < buffer.cursor.limit)
    (bound : index < words.length) (back : List Byte) :
    getAt (buffer.order.encode words ++ back) buffer index = .ok words[index] := by
  have loaded := load_address start (show 0 + index < words.length by omega) back
  simp only [Nat.zero_add] at loaded
  rw [getAt, Cursor.checkIndex, if_pos inRange, ok_bind, loaded]
  rfl

/-- An absolute put replaces a word. -/
theorem putAt_eq {buffer : IntBuffer} {words : List Word} {index : Nat}
    (start : buffer.offset = 0) (inRange : index < buffer.cursor.limit)
    (inWords : buffer.cursor.limit ≤ words.length) (value : Word) :
    putAt (buffer.order.encode words) buffer index value =
      .ok (buffer.order.encode (words.set index value)) := by
  have stored := store_address start (show 0 + index < words.length by omega) [] value
  rw [List.append_nil, List.append_nil, Nat.zero_add] at stored
  simp only [putAt, Cursor.checkIndex, if_pos inRange, ok_bind, stored]
  rfl

/-- A bulk put replaces a stretch of words. -/
theorem putWords_eq {buffer : IntBuffer} {words values : List Word}
    (start : buffer.offset = 0) (enough : buffer.cursor.position + values.length ≤
      buffer.cursor.limit) (inWords : buffer.cursor.limit ≤ words.length) :
    putWords (buffer.order.encode words) buffer values =
      .ok (buffer.order.encode (words.take buffer.cursor.position ++ values ++
          words.drop (buffer.cursor.position + values.length)),
        buffer.withCursor (buffer.cursor.skip values.length enough)) := by
  induction values generalizing buffer words with
  | nil => simp [putWords, Cursor.skip, Buffer.withCursor]
  | cons value values ih =>
      rw [List.length_cons] at enough
      have one : buffer.cursor.position + 1 ≤ buffer.cursor.limit := by omega
      have bound : 0 + buffer.cursor.position < words.length := by omega
      have stored := store_address start bound [] value
      simp only [List.append_nil, Nat.zero_add] at stored
      have rest := @ih (buffer.withCursor (buffer.cursor.skip 1 one))
        (words.set buffer.cursor.position value) start
        (by simp only [Buffer.withCursor_cursor, Cursor.skip]; omega)
        (by simpa [Cursor.skip] using inWords)
      simp only [putWords, put, Cursor.advance_of_le one, stored]
      have taken : (words.set buffer.cursor.position value).take (buffer.cursor.position + 1) =
          words.take buffer.cursor.position ++ [value] := by
        have full : (words.take buffer.cursor.position).length = buffer.cursor.position :=
          List.length_take_of_le (by omega)
        rw [List.set_eq_take_append_cons_drop, if_pos (by omega), List.append_cons,
          List.take_left' (by rw [List.length_append, full]; rfl)]
      have dropped : (words.set buffer.cursor.position value).drop
            (buffer.cursor.position + (values.length + 1)) =
          words.drop (buffer.cursor.position + (values.length + 1)) :=
        List.drop_set_of_lt (by omega)
      apply Eq.trans rest
      simp only [Buffer.withCursor, Cursor.skip, taken, dropped, List.append_assoc,
        List.singleton_append, List.length_cons, Nat.add_assoc, Nat.add_comm 1]

/-- The elements that remain are a stretch of words. -/
theorem remainingWords_eq {buffer : IntBuffer} {words : List Word} (start : buffer.offset = 0)
    (inWords : buffer.cursor.limit ≤ words.length) :
    remainingWords (buffer.order.encode words) buffer =
      (words.take buffer.cursor.limit).drop buffer.cursor.position := by
  apply List.ext_getElem
  · simp [remainingWords, Cursor.remaining, Nat.min_eq_left inWords]
  · intro index inRange _
    have below : index < buffer.cursor.remaining := by simpa [remainingWords] using inRange
    have bound : 0 + (buffer.cursor.position + index) < words.length := by
      unfold Cursor.remaining at below
      omega
    have loaded := load_address start bound []
    simp only [List.append_nil, Nat.zero_add] at loaded
    simp [remainingWords, loaded]

end IntBuffer

/-! ## Buffers in front of bytes -/

namespace ByteBuffer

/-- A buffer on a whole memory that stands in front of some bytes. -/
structure At (order : ByteOrder) (memory : List Byte) (buffer : ByteBuffer)
    (bytes : List Byte) : Prop where
  offset_eq : buffer.offset = 0
  order_eq : buffer.order = order
  limit_eq : buffer.cursor.limit = memory.length
  memory_eq : ∃ front back, memory = front ++ bytes ++ back ∧
    front.length = buffer.cursor.position

namespace At

variable {order : ByteOrder} {memory bytes rest : List Byte} {buffer : ByteBuffer}

/-- The start of a memory. -/
theorem start (order : ByteOrder) (bytes back : List Byte) :
    At order (bytes ++ back) (withOrder (wrap (bytes ++ back)) order) bytes :=
  ⟨rfl, rfl, rfl, [], back, rfl, rfl⟩

theorem enough (here : At order memory buffer (bytes ++ rest)) :
    buffer.cursor.position + bytes.length ≤ buffer.cursor.limit := by
  rcases here.memory_eq with ⟨front, back, memory_eq, position⟩
  rw [here.limit_eq, memory_eq]
  simp only [List.length_append]
  omega

/-- Behind some of the bytes come the others. -/
theorem skip (here : At order memory buffer (bytes ++ rest)) :
    At order memory (buffer.withCursor (buffer.cursor.skip bytes.length here.enough)) rest where
  offset_eq := here.offset_eq
  order_eq := here.order_eq
  limit_eq := here.limit_eq
  memory_eq := by
    rcases here.memory_eq with ⟨front, back, memory_eq, position⟩
    refine ⟨front ++ bytes, back, ?_, ?_⟩
    · rw [memory_eq, List.append_assoc front bytes rest]
    · rw [List.length_append, position]
      rfl

/-- A read of bytes returns them. -/
theorem getBytes (here : At order memory buffer (bytes ++ rest)) :
    ∃ next, ByteBuffer.getBytes memory buffer bytes.length = .ok (bytes, next) ∧
      At order memory next rest := by
  refine ⟨_, ?_, here.skip⟩
  rcases here.memory_eq with ⟨front, back, memory_eq, position⟩
  have taken : (memory.drop (buffer.offset + buffer.cursor.position)).take bytes.length =
      bytes := by
    rw [here.offset_eq, Nat.zero_add, ← position, memory_eq, List.append_assoc,
      List.drop_left, List.append_assoc, List.take_left]
  rw [ByteBuffer.getBytes, Cursor.advance_of_le here.enough, ok_bind, taken]
  rfl

/-- A read of a word returns the word of the bytes, wherever they lie. -/
theorem getInt {word : Word} (here : At order memory buffer (order.toBytes word ++ rest)) :
    ∃ next, ByteBuffer.getInt memory buffer = .ok (word, next) ∧ At order memory next rest := by
  have enough := here.enough
  have moved := here.skip
  simp only [ByteOrder.length_toBytes] at enough moved
  refine ⟨_, ?_, moved⟩
  rcases here.memory_eq with ⟨front, back, memory_eq, position⟩
  have loaded : buffer.order.load memory (buffer.offset + buffer.cursor.position) = word := by
    rw [here.order_eq, here.offset_eq, Nat.zero_add, ← position, memory_eq, List.append_assoc,
      List.append_assoc, ← List.append_assoc, order.load_append]
  rw [ByteBuffer.getInt, Cursor.advance_of_le enough, ok_bind, loaded]
  rfl

/-- The position can be set in front of any bytes of the memory. -/
theorem setPosition (here : At order memory buffer bytes) {front others back : List Byte}
    (memory_eq : memory = front ++ others ++ back) :
    ∃ next, Buffer.setPosition buffer front.length = .ok next ∧
      next.cursor.position = front.length ∧ At order memory next others := by
  have inRange : front.length ≤ buffer.cursor.limit := by
    rw [here.limit_eq, memory_eq]
    simp only [List.length_append]
    omega
  exact ⟨_, Buffer.setPosition_of_le inRange, rfl, here.offset_eq, here.order_eq, here.limit_eq,
    front, back, memory_eq, rfl⟩

end At

end ByteBuffer

end WebbitGwt.Nio
