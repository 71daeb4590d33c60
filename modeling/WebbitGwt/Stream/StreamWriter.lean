import WebbitGwt.Nio.Buffer
import WebbitGwt.Stream.Value

/-!
# `StreamWriter`

Everything is written as words into one growing byte buffer, through an integer
view and, for floats, through a view made on the spot.  Strings are collected in a
table and written as one-based indices into it.  Assertions are off, as they are in
a production build; with them on, `writeLong` would end in one that always fails.
-/

namespace WebbitGwt.Stream

open WebbitGwt.Java
open WebbitGwt.Nio

/-- The fields of a writer, the memory behind its buffers, and the fields it
inherits: flags, version and string table. -/
structure StreamWriter (S : Type) where
  memory : List Byte
  bb : ByteBuffer
  payload : IntBuffer
  flags : JInt
  version : JInt
  stringTable : List S

/-- The two parts of `getWorkerData`: the memory behind the payload and the table. -/
structure WorkerData (S : Type) where
  buffer : List Byte
  strings : List S

namespace StreamWriter

variable {S : Type} (nativeOrder : ByteOrder)

/-- The constructor.  Version and flags have the defaults of the base class. -/
def new : Except BufferException (StreamWriter S) := do
  let (memory, bb) ← ByteBuffer.allocate (8 <<< 2)
  let bb := ByteBuffer.withOrder bb nativeOrder
  -- leave room for flags, version, size
  let payload ← Buffer.setPosition (ByteBuffer.asIntBuffer bb) 3
  return { memory, bb, payload, flags := 0, version := 7, stringTable := [] }

def maybeGrow (writer : StreamWriter S) : Except BufferException (StreamWriter S) :=
  if writer.payload.cursor.hasRemaining then
    return writer
  else do
    let old := writer.bb
    let (memory, bb) ← ByteBuffer.allocate (old.cursor.capacity * 2)
    let bb := ByteBuffer.withOrder bb nativeOrder
    let oldPayload := writer.payload
    let payload := ByteBuffer.asIntBuffer bb
    let (memory, payload) ← IntBuffer.putBuffer memory payload writer.memory
      (oldPayload.withCursor oldPayload.cursor.flip)
    return { writer with memory, bb, payload }

def writeInt (writer : StreamWriter S) (fieldValue : JInt) :
    Except BufferException (StreamWriter S) := do
  let writer ← maybeGrow nativeOrder writer
  let (memory, payload) ← IntBuffer.put writer.memory writer.payload fieldValue
  return { writer with memory, payload }

def writeFloat (writer : StreamWriter S) (fieldValue : JFloat) :
    Except BufferException (StreamWriter S) := do
  let writer ← maybeGrow nativeOrder writer
  let position := writer.payload.cursor.position
  let memory ← IntBuffer.putAt writer.memory (ByteBuffer.asFloatBuffer writer.bb) position
    fieldValue.bits
  let payload ← Buffer.setPosition writer.payload (position + 1)
  return { writer with memory, payload }

def writeLong (writer : StreamWriter S) (l : JLong) : Except BufferException (StreamWriter S) := do
  let (a0, a1, a2) := splitLong l
  let writer ← writeInt nativeOrder writer a0
  let writer ← writeInt nativeOrder writer a1
  writeInt nativeOrder writer a2

def writeBoolean (writer : StreamWriter S) (fieldValue : Bool) :
    Except BufferException (StreamWriter S) :=
  writeInt nativeOrder writer (if fieldValue then 1 else 0)

def writeByte (writer : StreamWriter S) (fieldValue : JByte) :
    Except BufferException (StreamWriter S) :=
  writeInt nativeOrder writer (fieldValue.signExtend 32)

def writeChar (writer : StreamWriter S) (ch : JChar) : Except BufferException (StreamWriter S) :=
  writeInt nativeOrder writer (ch.setWidth 32)

def writeShort (writer : StreamWriter S) (value : JShort) :
    Except BufferException (StreamWriter S) :=
  writeInt nativeOrder writer (value.signExtend 32)

def writeDouble (writer : StreamWriter S) (fieldValue : JDouble) :
    Except BufferException (StreamWriter S) :=
  writeLong nativeOrder writer (doubleToLongBits fieldValue)

/-- What `getWorkerData` and `getSocketData` begin with: cut the payload to what has
been written and fill in its header. -/
def finish (writer : StreamWriter S) : Except BufferException (List Byte × IntBuffer) := do
  let payload ← Buffer.setLimit writer.payload writer.payload.cursor.position
  let payload ← Buffer.setPosition payload 0
  let payload := payload.slice
  let memory ← IntBuffer.putAt writer.memory payload 0 writer.flags
  let memory ← IntBuffer.putAt memory payload 1 writer.version
  -- mark the size of the payload
  let memory ← IntBuffer.putAt memory payload 2 (BitVec.ofNat 32 payload.cursor.limit - 3)
  return (memory, payload)

/-- `getWorkerData`.  The buffer of a typed array is the whole of its memory. -/
def getWorkerData (writer : StreamWriter S) : Except BufferException (WorkerData S) := do
  let (memory, _) ← finish writer
  return { buffer := memory, strings := writer.stringTable }

variable [DecidableEq S]

/-- `addString` of the base class: the index of a string, counted from one, in a
table to which it is added if it is new; zero for null. -/
def addString (table : List S) : Option S → JInt × List S
  | none => (0, table)
  | some string =>
      if string ∈ table then
        (BitVec.ofNat 32 (table.idxOf string + 1), table)
      else
        (BitVec.ofNat 32 (table.length + 1), table ++ [string])

/-- `writeString` of the base class. -/
def writeString (writer : StreamWriter S) (value : Option S) :
    Except BufferException (StreamWriter S) :=
  let (index, stringTable) := addString writer.stringTable value
  writeInt nativeOrder { writer with stringTable := stringTable } index

/-- The write that a value calls for. -/
def write (writer : StreamWriter S) : Value S → Except BufferException (StreamWriter S)
  | .int value => writeInt nativeOrder writer value
  | .boolean value => writeBoolean nativeOrder writer value
  | .byte value => writeByte nativeOrder writer value
  | .char value => writeChar nativeOrder writer value
  | .short value => writeShort nativeOrder writer value
  | .long value => writeLong nativeOrder writer value
  | .float value => writeFloat nativeOrder writer value
  | .double value => writeDouble nativeOrder writer value
  | .string value => writeString nativeOrder writer value

/-- Write a sequence of values. -/
def writeAll (writer : StreamWriter S) : List (Value S) → Except BufferException (StreamWriter S)
  | [] => .ok writer
  | value :: values => do
      let writer ← write nativeOrder writer value
      writeAll writer values

/-- A writer that has written a sequence of values and nothing else. -/
def ofValues (values : List (Value S)) : Except BufferException (StreamWriter S) := do
  let writer ← new nativeOrder
  writeAll nativeOrder writer values

end StreamWriter

end WebbitGwt.Stream
