import WebbitGwt.Stream.StreamWriter

/-!
# `StreamReader`

A reader reads words through an integer view of the payload.  Floats are read
through a float view of the byte buffer, made on the spot, at the index where the
integer view stands.  Assertions are off.
-/

namespace WebbitGwt.Stream

open WebbitGwt.Java
open WebbitGwt.Nio

/-- The fields of a reader, the memory behind its buffers, and the flags and version
it inherits. -/
structure StreamReader (S : Type) where
  memory : List Byte
  bb : ByteBuffer
  payload : IntBuffer
  strings : List S
  flags : JInt
  version : JInt

namespace StreamReader

variable {S : Type}

/-- The constructor for the two parts of a message between workers. -/
def ofBuffer (memory : List Byte) (bb : ByteBuffer) (strings : List S) :
    Except BufferException (StreamReader S) := do
  let payload := ByteBuffer.asIntBuffer bb
  let (version, payload) ← IntBuffer.get memory payload
  let (flags, payload) ← IntBuffer.get memory payload
  -- the length is only compared in an assertion
  let (_, payload) ← IntBuffer.get memory payload
  return { memory, bb, payload, strings, flags, version }

/-- A reader as `__onMessage` makes it. -/
def ofWorkerData (nativeOrder : ByteOrder) (data : WorkerData S) :
    Except BufferException (StreamReader S) :=
  ofBuffer data.buffer (ByteBuffer.withOrder (ByteBuffer.wrap data.buffer) nativeOrder)
    data.strings

/-- `getString`.  A position beyond the end of a JavaScript array holds null. -/
def getString (reader : StreamReader S) (i : JInt) : Option S :=
  if (0 : JInt).slt i then reader.strings[i.toNat - 1]? else none

def readInt (reader : StreamReader S) : Except BufferException (JInt × StreamReader S) := do
  let (value, payload) ← IntBuffer.get reader.memory reader.payload
  return (value, { reader with payload })

def readBoolean (reader : StreamReader S) : Except BufferException (Bool × StreamReader S) := do
  let (value, reader) ← reader.readInt
  return (value == 1, reader)

def readByte (reader : StreamReader S) : Except BufferException (JByte × StreamReader S) := do
  let (value, reader) ← reader.readInt
  return (value.setWidth 8, reader)

def readChar (reader : StreamReader S) : Except BufferException (JChar × StreamReader S) := do
  let (value, reader) ← reader.readInt
  return (value.setWidth 16, reader)

def readShort (reader : StreamReader S) : Except BufferException (JShort × StreamReader S) := do
  let (value, reader) ← reader.readInt
  return (value.setWidth 16, reader)

def readLong (reader : StreamReader S) : Except BufferException (JLong × StreamReader S) := do
  let (a0, reader) ← reader.readInt
  let (a1, reader) ← reader.readInt
  let (a2, reader) ← reader.readInt
  return (joinLong a0 a1 a2, reader)

def readFloat (reader : StreamReader S) : Except BufferException (JFloat × StreamReader S) := do
  let position := reader.payload.cursor.position
  let payload ← Buffer.setPosition reader.payload (position + 1)
  let value ← IntBuffer.getAt reader.memory (ByteBuffer.asFloatBuffer reader.bb) position
  return (.ofBits value, { reader with payload })

def readDouble (reader : StreamReader S) :
    Except BufferException (JDouble × StreamReader S) := do
  let (value, reader) ← reader.readLong
  return (longBitsToDouble value, reader)

def readString (reader : StreamReader S) :
    Except BufferException (Option S × StreamReader S) := do
  let (index, reader) ← reader.readInt
  return (reader.getString index, reader)

/-- The read that a type calls for. -/
def read (reader : StreamReader S) : Kind → Except BufferException (Value S × StreamReader S)
  | .int => do let (value, reader) ← reader.readInt; return (.int value, reader)
  | .boolean => do let (value, reader) ← reader.readBoolean; return (.boolean value, reader)
  | .byte => do let (value, reader) ← reader.readByte; return (.byte value, reader)
  | .char => do let (value, reader) ← reader.readChar; return (.char value, reader)
  | .short => do let (value, reader) ← reader.readShort; return (.short value, reader)
  | .long => do let (value, reader) ← reader.readLong; return (.long value, reader)
  | .float => do let (value, reader) ← reader.readFloat; return (.float value, reader)
  | .double => do let (value, reader) ← reader.readDouble; return (.double value, reader)
  | .string => do let (value, reader) ← reader.readString; return (.string value, reader)

/-- Read a sequence of types; what is left is not looked at. -/
def readAll (reader : StreamReader S) :
    List Kind → Except BufferException (List (Value S) × StreamReader S)
  | [] => .ok ([], reader)
  | kind :: kinds => do
      let (value, reader) ← reader.read kind
      let (values, reader) ← readAll reader kinds
      return (value :: values, reader)

end StreamReader

end WebbitGwt.Stream
